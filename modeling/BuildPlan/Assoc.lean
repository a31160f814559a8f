/-!
# Association lists

Tables in which the order of first insertion counts: `insert` replaces the value of a key where it stands and
puts a new key at the end.
-/

namespace BuildPlan

/-- A table from keys to values, in the order in which the keys came. -/
abbrev Assoc (κ β : Type) := List (κ × β)

namespace Assoc

variable {κ β : Type}

/-- The keys in their order. -/
def keys (t : Assoc κ β) : List κ := t.map (·.1)

variable [DecidableEq κ]

/-- The value of a key. -/
def find? : Assoc κ β → κ → Option β
  | [], _ => none
  | entry :: rest, key => if entry.1 = key then some entry.2 else find? rest key

/-- The key has a value. -/
def contains (t : Assoc κ β) (key : κ) : Bool := (find? t key).isSome

/-- The table with the key's value set. -/
def insert : Assoc κ β → κ → β → Assoc κ β
  | [], key, value => [(key, value)]
  | entry :: rest, key, value =>
    if entry.1 = key then (key, value) :: rest else entry :: insert rest key value

/-- The table without the key. -/
def erase (t : Assoc κ β) (key : κ) : Assoc κ β := t.filter (·.1 ≠ key)

/-- The table with all of the entries set, later ones winning. -/
def insertAll (t : Assoc κ β) (entries : List (κ × β)) : Assoc κ β :=
  entries.foldl (fun t entry => insert t entry.1 entry.2) t

/-- The table of a list of entries. -/
def ofList (entries : List (κ × β)) : Assoc κ β := insertAll [] entries

@[simp] theorem find?_nil (key : κ) : find? ([] : Assoc κ β) key = none := rfl

theorem mem_of_find? {t : Assoc κ β} {key : κ} {value : β} (h : find? t key = some value) : (key, value) ∈ t := by
  induction t with
  | nil => cases h
  | cons entry rest ih => grind [find?]

theorem find?_of_mem {t : Assoc κ β} {key : κ} {value : β} (h : (key, value) ∈ t) (hkeys : (keys t).Nodup) :
    find? t key = some value := by
  induction t with
  | nil => cases h
  | cons entry rest ih =>
    obtain ⟨hentry, hrest⟩ := List.nodup_cons.mp hkeys
    rw [find?]
    rcases List.mem_cons.mp h with rfl | h
    · rw [if_pos rfl]
    · have hne : entry.1 ≠ key := fun heq => hentry (List.mem_map.mpr ⟨(key, value), h, heq.symm⟩)
      rw [if_neg hne, ih h hrest]

theorem find?_append (t more : Assoc κ β) (key : κ) : find? (t ++ more) key = (find? t key).or (find? more key) := by
  induction t with
  | nil => rfl
  | cons entry rest ih =>
    rw [List.cons_append, find?, find?, ih]
    split <;> rfl

theorem find?_insert (t : Assoc κ β) (key other : κ) (value : β) :
    find? (insert t key value) other = if other = key then some value else find? t other := by
  induction t with
  | nil => simp [insert, find?, eq_comm]
  | cons entry rest ih => grind [insert, find?]

theorem find?_erase (t : Assoc κ β) (key other : κ) :
    find? (erase t key) other = if other = key then none else find? t other := by
  induction t with
  | nil => simp [erase, find?]
  | cons entry rest ih => grind [erase, find?]

theorem keys_insert (t : Assoc κ β) (key : κ) (value : β) :
    keys (insert t key value) = if key ∈ keys t then keys t else keys t ++ [key] := by
  induction t with
  | nil => simp [insert, keys]
  | cons entry rest ih => grind [insert, keys]

theorem nodup_keys_insert {t : Assoc κ β} (h : (keys t).Nodup) (key : κ) (value : β) :
    (keys (insert t key value)).Nodup := by
  rw [keys_insert]
  split
  · exact h
  case isFalse hnew =>
    refine List.nodup_append.mpr ⟨h, List.pairwise_singleton _ _, fun old hold other hother heq => hnew ?_⟩
    rwa [← List.mem_singleton.mp hother, ← heq]

theorem find?_foldl_insert {α : Type} (name : α → κ) (value : β) (xs : List α) (t : Assoc κ β) (key : κ) :
    find? (xs.foldl (fun t x => insert t (name x) value) t) key =
      if key ∈ xs.map name then some value else find? t key := by
  induction xs generalizing t with
  | nil => simp
  | cons x rest ih =>
    rw [List.foldl_cons, ih, find?_insert]
    by_cases hx : key = name x <;> by_cases hrest : key ∈ rest.map name <;> simp [hx, hrest]

/-- Of entries whose values depend on their keys alone, each key has its value, whatever their order. -/
theorem find?_insertAll (value : κ → β) {entries : List (κ × β)} (h : ∀ entry ∈ entries, entry.2 = value entry.1)
    (t : Assoc κ β) (key : κ) :
    find? (insertAll t entries) key = if key ∈ keys entries then some (value key) else find? t key := by
  induction entries generalizing t with
  | nil => simp [insertAll, keys]
  | cons entry rest ih =>
    obtain ⟨hentry, hrest⟩ := List.forall_mem_cons.mp h
    change find? (insertAll (insert t entry.1 entry.2) rest) key = _
    rw [ih hrest, find?_insert, hentry]
    by_cases hkey : key = entry.1 <;> by_cases hmem : key ∈ keys rest <;> simp_all [keys]

theorem mem_keys_of_find? {t : Assoc κ β} {key : κ} {value : β} (h : find? t key = some value) : key ∈ keys t :=
  List.mem_map.mpr ⟨(key, value), mem_of_find? h, rfl⟩

theorem exists_find?_of_mem_keys {t : Assoc κ β} {key : κ} (h : key ∈ keys t) : ∃ value, find? t key = some value := by
  induction t with
  | nil => cases h
  | cons entry rest ih =>
    rw [find?]
    split
    · exact ⟨entry.2, rfl⟩
    case isFalse hne => exact ih ((List.mem_cons.mp h).resolve_left fun heq => hne heq.symm)

theorem insert_eq_self {t : Assoc κ β} {key : κ} {value : β} (h : find? t key = some value) :
    insert t key value = t := by
  induction t with
  | nil => cases h
  | cons entry rest ih => grind [find?, insert]

theorem insert_of_notMem {t : Assoc κ β} {key : κ} (h : key ∉ keys t) (value : β) :
    insert t key value = t ++ [(key, value)] := by
  induction t with
  | nil => rfl
  | cons entry rest ih =>
    obtain ⟨hentry, hrest⟩ := not_or.mp (fun hmem => h (List.mem_cons.mpr hmem))
    rw [insert, if_neg (Ne.symm hentry), ih hrest, List.cons_append]

theorem insertAll_append (t : Assoc κ β) (entries more : List (κ × β)) :
    insertAll t (entries ++ more) = insertAll (insertAll t entries) more := List.foldl_append

theorem insertAll_eq_append {t entries : Assoc κ β} (h : (keys (t ++ entries)).Nodup) :
    insertAll t entries = t ++ entries := by
  induction entries generalizing t with
  | nil => exact (List.append_nil t).symm
  | cons entry rest ih =>
    have hsplit : t ++ entry :: rest = t ++ [entry] ++ rest := by rw [List.append_assoc, List.singleton_append]
    have hnew : entry.1 ∉ keys t := by
      rw [keys, List.map_append, List.nodup_append] at h
      exact fun hmem => h.2.2 entry.1 hmem entry.1 List.mem_cons_self rfl
    rw [hsplit] at h ⊢
    rw [← ih h, ← insert_of_notMem hnew entry.2]
    rfl

theorem ofList_eq_self {t : Assoc κ β} (h : (keys t).Nodup) : ofList t = t := by
  rw [ofList, insertAll_eq_append (by rwa [List.nil_append]), List.nil_append]

theorem find?_insertAll_of_notMem {entries : List (κ × β)} {key : κ} (h : key ∉ keys entries) (t : Assoc κ β) :
    find? (insertAll t entries) key = find? t key := by
  induction entries generalizing t with
  | nil => rfl
  | cons entry rest ih =>
    obtain ⟨hentry, hrest⟩ := not_or.mp (fun hmem => h (List.mem_cons.mpr hmem))
    change find? (insertAll (insert t entry.1 entry.2) rest) key = _
    rw [ih hrest, find?_insert, if_neg hentry]

theorem isSome_find?_insertAll {entries : List (κ × β)} {key : κ} (h : key ∈ keys entries) (t : Assoc κ β) :
    (find? (insertAll t entries) key).isSome := by
  induction entries generalizing t with
  | nil => cases h
  | cons entry rest ih =>
    change (find? (insertAll (insert t entry.1 entry.2) rest) key).isSome
    by_cases hrest : key ∈ keys rest
    · exact ih hrest _
    · have hentry : key = entry.1 := (List.mem_cons.mp h).resolve_right hrest
      rw [find?_insertAll_of_notMem hrest, find?_insert, if_pos hentry]
      rfl

theorem exists_insertAll_cons (key : κ) (value : β) (t : Assoc κ β) (entries : List (κ × β)) :
    ∃ last, insertAll ((key, value) :: t) entries = (key, last) :: insertAll t (erase entries key) := by
  induction entries generalizing value t with
  | nil => exact ⟨value, rfl⟩
  | cons entry rest ih =>
    change ∃ last, insertAll
        (if key = entry.1 then (entry.1, entry.2) :: t else (key, value) :: insert t entry.1 entry.2)
      rest = _
    by_cases hkey : key = entry.1
    · have herase : erase (entry :: rest) key = erase rest key := List.filter_cons_of_neg (by simp [hkey])
      rw [if_pos hkey, ← hkey, herase]
      exact ih entry.2 t
    · have herase : erase (entry :: rest) key = entry :: erase rest key :=
        List.filter_cons_of_pos (by simpa using fun h => hkey h.symm)
      rw [if_neg hkey, herase]
      exact ih value (insert t entry.1 entry.2)

theorem insertAll_eq_self {t : Assoc κ β} {entries : List (κ × β)}
    (h : ∀ key, find? (insertAll t entries) key = find? t key) : insertAll t entries = t := by
  induction t generalizing entries with
  | nil =>
    cases entries with
    | nil => rfl
    | cons entry rest =>
      have hmem : entry.1 ∈ keys (entry :: rest) := List.mem_cons_self
      have hsome := isSome_find?_insertAll hmem []
      rw [h] at hsome
      cases hsome
  | cons entry rest ih =>
    obtain ⟨last, hlast⟩ := exists_insertAll_cons entry.1 entry.2 rest entries
    rw [show (entry.1, entry.2) = entry from rfl] at hlast
    rw [hlast] at h ⊢
    have hvalue : last = entry.2 := by
      have hkey := h entry.1
      rw [find?, if_pos rfl, find?, if_pos rfl] at hkey
      exact Option.some.inj hkey
    rw [hvalue, ih fun key => ?_]
    by_cases hkey : key = entry.1
    · refine find?_insertAll_of_notMem (fun hmem => ?_) rest
      obtain ⟨other, hother, hname⟩ := List.mem_map.mp hmem
      simp [erase, hname, hkey] at hother
    · have hother := h key
      rwa [find?, if_neg (Ne.symm hkey), find?, if_neg (Ne.symm hkey)] at hother

end Assoc

end BuildPlan
