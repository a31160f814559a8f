import BuildPlan.Proofs.Flag.History
import BuildPlan.Proofs.Flag.Settling

/-!
# Values from one run to the next

Locking a registry writes the values of its flags to a file, which gives them back. A registry with the same flags that
remembers them has the same values again, in whatever order its flags are registered and read, but for those that its
command line names (`Settings.lock_roundTrip`): each remembered text is read as a value that is written in the same way.
-/

namespace BuildPlan

theorem LockedFlags.find?_values (locked : LockedFlags) (name : String) :
    Assoc.find? locked.values name = (Assoc.find? locked.info name).map (·.value) := by
  unfold LockedFlags.values
  induction locked.info with
  | nil => rfl
  | cons entry rest ih =>
    rw [List.map_cons, Assoc.find?, Assoc.find?, ih]
    by_cases hname : entry.1 = name <;> simp [hname]

theorem LockedFlags.keys_values (locked : LockedFlags) : Assoc.keys locked.values = Assoc.keys locked.info := by
  rw [Assoc.keys, values, List.map_map]
  rfl

namespace Registry

variable {r s : Registry} {flag : Flag} {value : FlagValue} {table : Assoc String FlagInfo} {inner : Access}

theorem resolve_ok_of_parse {text : String} (htext : r.textFor? flag.name = some text)
    (hparse : flag.parse text = .ok value) : resolve inner flag r = .ok value r := by
  rw [resolve_of_text htext, hparse]
  rfl

/-! ### Values that are bound to come -/

/-- The flag has this value whenever it is read: there is a text that says so, and the flag has no other value yet. -/
structure Determines (r : Registry) (flag : Flag) (value : FlagValue) : Prop where
  registered : Assoc.find? r.flags flag.name = some flag
  text : ∃ text, r.textFor? flag.name = some text ∧ flag.parse text = .ok value
  known : ∀ other, Assoc.find? r.values flag.name = some other → other = value
  shown : ∀ other ∈ flag.allowed, flag.isTooLong other = false

/-- Describing the flags of the table can only come to what the table says. -/
def Foretells (r : Registry) (table : Assoc String FlagInfo) : Prop :=
  ∀ entry ∈ table, ∃ flag value, r.Determines flag value ∧ entry = (flag.name, flag.infoOf value)

theorem Determines.insert (h : r.Determines flag value) {other : Flag} {value' : FlagValue}
    (hother : r.Determines other value') :
    Determines { r with values := Assoc.insert r.values flag.name value } other value' := by
  refine { hother with known := fun known hknown => ?_ }
  rw [Assoc.find?_insert] at hknown
  by_cases hname : other.name = flag.name
  · obtain rfl : other = flag := by
      have hregistered := hother.registered
      rw [hname, h.registered] at hregistered
      exact (Option.some.inj hregistered).symm
    rw [if_pos rfl] at hknown
    obtain ⟨text, htext, hparse⟩ := h.text
    obtain ⟨text', htext', hparse'⟩ := hother.text
    cases htext.symm.trans htext'
    cases hparse.symm.trans hparse'
    exact (Option.some.inj hknown).symm
  · rw [if_neg hname] at hknown
    exact hother.known known hknown

theorem Determines.infoFor (h : r.Determines flag value) :
    ∃ s, infoFor inner flag.name r = .ok (flag.name, flag.infoOf value) s ∧
      ∀ {other value'}, r.Determines other value' → s.Determines other value' := by
  obtain ⟨text, htext, hparse⟩ := h.text
  have hvalue : ∃ s, valueBy inner flag r = .ok value s ∧
      ∀ {other value'}, r.Determines other value' → s.Determines other value' := by
    cases hknown : Assoc.find? r.values flag.name with
    | some known =>
      cases h.known known hknown
      exact ⟨r, valueBy_of_known hknown, id⟩
    | none => exact ⟨_, valueBy_of_resolve hknown (resolve_ok_of_parse htext hparse), h.insert⟩
  obtain ⟨s, hvalue, hkeeps⟩ := hvalue
  refine ⟨s, bind_eq_ok_iff.mpr ⟨r, r, rfl, ?_⟩, hkeeps⟩
  rw [h.registered]
  refine bind_eq_ok_iff.mpr ⟨(), r, checkLengths_of_short h.shown r, ?_⟩
  refine bind_eq_ok_iff.mpr ⟨value, s, hvalue, bind_eq_ok_iff.mpr ⟨(), s, checkLengths_of_short ?_ s, rfl⟩⟩
  exact List.forall_mem_singleton.mpr (Flag.isTooLong_of_parse hparse)

theorem Foretells.mapM_infoFor (h : r.Foretells table) :
    ∃ s, (Assoc.keys table).mapM (Registry.infoFor factoryAccess) r = .ok table s := by
  induction table generalizing r with
  | nil => exact ⟨r, rfl⟩
  | cons entry rest ih =>
    obtain ⟨⟨flag, value, hdetermines, rfl⟩, hrest⟩ := List.forall_mem_cons.mp h
    obtain ⟨s, hfirst, hkeeps⟩ := hdetermines.infoFor
    obtain ⟨t, hmore⟩ := ih fun entry hentry => by
      obtain ⟨other, value', hother, hentry⟩ := hrest entry hentry
      exact ⟨other, value', hkeeps hother, hentry⟩
    refine ⟨t, ?_⟩
    show (flag.name :: Assoc.keys rest).mapM (Registry.infoFor factoryAccess) r = _
    rw [List.mapM_cons]
    exact bind_eq_ok_iff.mpr ⟨_, s, hfirst, bind_eq_ok_iff.mpr ⟨rest, t, hmore, rfl⟩⟩

theorem Foretells.info (h : r.Foretells table) (hkeys : Assoc.keys table = r.names) :
    ∃ s, Registry.info r = .ok table s := by
  obtain ⟨s, hmap⟩ := h.mapM_infoFor
  rw [hkeys] at hmap
  exact ⟨s, bind_eq_ok_iff.mpr ⟨r, r, rfl, hmap⟩⟩

theorem Determines.find?_table (h : r.Determines flag value) (hshows : ∀ entry ∈ table, r.Shows entry)
    (hkeys : Assoc.keys table = r.names) : Assoc.find? table flag.name = some (flag.infoOf value) := by
  have hname : flag.name ∈ Assoc.keys table := by
    rw [hkeys]
    exact Text.mem_sortOn.mpr (Assoc.mem_keys_of_find? h.registered)
  obtain ⟨i, hfound⟩ := Assoc.exists_find?_of_mem_keys hname
  obtain ⟨other, known, hother, hknown, hentry, -⟩ := hshows _ (Assoc.mem_of_find? hfound)
  cases h.registered.symm.trans hother
  rw [hfound, show i = flag.infoOf known from hentry, h.known known hknown]

/-! ### Flags with texts -/

/-- All registered flags have texts. -/
def HasTexts (r : Registry) : Prop :=
  ∀ name flag, Assoc.find? r.flags name = some flag → (r.textFor? flag.name).isSome

theorem flags_infoFor_of_hasTexts (inner : Access) (h : r.HasTexts) (name : String) :
    (endState (infoFor inner name) r).flags = r.flags := by
  rw [infoFor, endState_get_bind]
  cases hflag : Assoc.find? r.flags name with
  | none => rfl
  | some flag =>
    show (endState (checkLengths flag flag.allowed >>= _) r).flags = r.flags
    have hsame := endState_checkLengths flag flag.allowed r
    cases hallowed : checkLengths flag flag.allowed r with
    | error e s =>
      rw [endState_of_error hallowed] at hsame
      rw [endState_bind_of_error hallowed, hsame]
    | ok _ s =>
      rw [endState_of_ok hallowed] at hsame
      rw [endState_bind_of_ok hallowed, hsame, endState_bind_quiet]
      · have hresolve : endState (resolve inner flag) r = r := by rw [endState_resolve, if_pos (h name flag hflag)]
        cases hvalue : Assoc.find? r.values flag.name with
        | some value => rw [endState_of_ok (valueBy_of_known hvalue)]
        | none =>
          cases hop : resolve inner flag r with
          | ok value t =>
            rw [endState_of_ok hop] at hresolve
            rw [endState_of_ok (valueBy_of_resolve hvalue hop), hresolve]
          | error e t =>
            rw [endState_of_error hop] at hresolve
            rw [endState_of_error (valueBy_of_error hvalue hop), hresolve]
      · intro value t
        rw [endState_bind_quiet fun _ _ => rfl, endState_checkLengths]

theorem HasTexts.reads {asked : Flag → Prop} (h : r.HasTexts) (hreads : Reads asked r s) (hflags : s.flags = r.flags) :
    s.HasTexts := by
  intro name flag hflag
  rw [textFor?_congr hreads.commandLine hreads.remembered]
  rw [hflags] at hflag
  exact h name flag hflag

theorem flags_settle_of_hasTexts (h : r.HasTexts) : (endState settle r).flags = r.flags := by
  have hkeeps : Keeps (fun r s => r.HasTexts → s.flags = r.flags ∧ s.HasTexts) info := by
    have hlasting : Lasting fun r s : Registry => r.HasTexts → s.flags = r.flags ∧ s.HasTexts :=
      ⟨fun _ h => ⟨rfl, h⟩, fun hrs hst h => ⟨(hst (hrs h).2).1.trans (hrs h).1, (hst (hrs h).2).2⟩⟩
    refine (keeps_get hlasting).bind hlasting fun r => .mapM hlasting fun name _ r h => ?_
    have hflags := flags_infoFor_of_hasTexts factoryAccess h name
    exact ⟨hflags, h.reads (reads_infoFor (fun _ => False) name r) hflags⟩
  rw [settle, endState_bind_quiet]
  · exact (hkeeps r h).1
  · intro table s
    split <;> rfl

end Registry

/-- The texts that a lock has recorded of these flags are read as values of which the same would be recorded. -/
def LockedFlags.ReadsBack (flags : Assoc String Flag) (locked : LockedFlags) : Prop :=
  ∀ entry ∈ locked.info, ∃ flag value text, Assoc.find? flags flag.name = some flag ∧
    Assoc.find? locked.values flag.name = some text ∧ flag.parse text = .ok value ∧
    (∀ other ∈ flag.allowed, flag.isTooLong other = false) ∧ entry = (flag.name, flag.infoOf value)


namespace Settings

open Registry

variable {start : Registry} {s t : Settings} {requests : List FlagRequest} {file : Option String} {locked : LockedFlags}

theorem serveAll_lock (h : lock file (s.serveAll requests) = .ok locked t) :
    s.serveAll (requests ++ [.lock file]) = t := by
  rw [serveAll_append]
  exact endState_of_ok (bind_eq_ok_iff.mpr ⟨locked, t, h, rfl⟩)

theorem locked_of_lock (hsound : Sound start s.registry) (h : lock file s = .ok locked t) :
    t.registry.locked = some locked := by
  have hserve : (FlagRequest.lock file).serve s = .ok (.locked locked) t := bind_eq_ok_iff.mpr ⟨locked, t, h, rfl⟩
  exact (agrees_serve hsound hserve).2

theorem pairwise_keys_info (hsound : Sound start s.registry) (hnodup : (Assoc.keys s.registry.flags).Nodup)
    (hopen : s.registry.locked = none) (hlocked : (s.serveAll requests).registry.locked = some locked) :
    (Assoc.keys locked.info).Pairwise (· < ·) := by
  obtain ⟨before, _, _, t, -, hsettle, -⟩ := exists_settle hopen hlocked
  rw [(info_ok (sound_serveAll hsound before).named (info_of_settle hsettle).1).1]
  exact Text.pairwise_lt_sortTexts (nodup_serveAll hnodup before)

theorem keys_info_of_hasTexts (hsound : Sound start s.registry) (hopen : s.registry.locked = none)
    (htexts : (s.serveAll requests).registry.HasTexts)
    (hlocked : (s.serveAll requests).registry.locked = some locked) :
    Assoc.keys locked.info = (s.serveAll requests).registry.names := by
  obtain ⟨before, file, after, t, rfl, hsettle, hflags⟩ := exists_settle hopen hlocked
  have hbefore := sound_serveAll hsound before
  have hcontinues : (s.serveAll before).registry.Continues (s.serveAll (before ++ .lock file :: after)).registry := by
    rw [serveAll_append]
    exact continues_serveAll _ _
  have hearlier : (s.serveAll before).registry.HasTexts := by
    intro name flag hflag
    rw [← textFor?_congr hcontinues.commandLine hcontinues.remembered]
    exact htexts name flag (hcontinues.flags hflag)
  have hsame := flags_settle_of_hasTexts hearlier
  rw [endState_of_ok hsettle] at hsame
  rw [(info_ok hbefore.named (info_of_settle hsettle).1).1, names, names, hflags, hsame]

/-- Values are of the types of their flags if what is known from the start and what is mentioned gives such values. -/
theorem typed_serveAll (hsound : Sound start s.registry) (hvalues : s.registry.values = [])
    (htyped : ∀ flag, s.registry.Knows (Mentioned requests) flag → flag.HasTypedDefault s.registry) {name : String}
    {value : FlagValue} (h : Assoc.find? (s.serveAll requests).registry.values name = some value) :
    ∃ flag, Assoc.find? (s.serveAll requests).registry.flags name = some flag ∧ value.kind = flag.kind := by
  obtain ⟨flag, used, hflag, -, hkind, hused, hgives⟩ := exists_source hsound (by rw [hvalues]; rfl) h
  have hfactories := (continues_serveAll requests s).factories
  refine ⟨flag, hflag, (Flag.kind_of_gives ⟨(htyped used hused).1, ?_⟩ hgives).trans hkind⟩
  intro id hfactory call value hgiven
  rw [behavior_congr hfactories] at hgiven
  exact (htyped used hused).2 id hfactory call value hgiven

theorem readsBack_of_locked (hsound : Sound start s.registry) (hkeys : (Assoc.keys locked.info).Pairwise (· < ·))
    (hlocked : s.registry.locked = some locked)
    (htyped : ∀ {name value}, Assoc.find? s.registry.values name = some value →
      ∃ flag, Assoc.find? s.registry.flags name = some flag ∧ value.kind = flag.kind)
    (hfloats : ∀ {name x}, Assoc.find? s.registry.values name = some (.float x) → x.ReadsBack) :
    locked.ReadsBack s.registry.flags := by
  intro entry hentry
  obtain ⟨flag, value, hflag, hvalue, hi, hallowed, hshort⟩ := hsound.settled hlocked entry hentry
  have hname := hsound.named hflag
  have hkind : value.kind = flag.kind := by
    obtain ⟨known, hknown, hkind⟩ := htyped hvalue
    cases hflag.symm.trans hknown
    exact hkind
  obtain ⟨value', hparse, halike⟩ := Flag.parse_format hkind hshort fun x hx => hfloats (hx ▸ hvalue)
  have hfound : Assoc.find? locked.info flag.name = some entry.2 :=
    Assoc.find?_of_mem (by rwa [hname]) (hkeys.imp String.ne_of_lt)
  refine ⟨flag, value', flag.format value, by rwa [hname], ?_, hparse, hallowed, Prod.ext hname.symm ?_⟩
  · rw [LockedFlags.find?_values, hfound, hi]
    rfl
  · rw [hi, Flag.infoOf, Flag.infoOf, halike.format]

theorem readBack_eq (hkeys : (Assoc.keys locked.info).Pairwise (· < ·)) : readBack locked = locked.values := by
  rw [← LockedFlags.keys_values] at hkeys
  have hsorted : locked.values.Pairwise fun a b => a.1 ≤ b.1 :=
    List.pairwise_map.mp (hkeys.imp fun hlt => String.not_lt.mp fun hgt => String.lt_irrefl _ (String.lt_trans hlt hgt))
  rw [readBack, Text.sortOn_eq_self hsorted]
  exact Assoc.ofList_eq_self (hkeys.imp String.ne_of_lt)

/-! ### The next run -/

section next

variable {given : Assoc String String} {factories : Assoc String FactoryBehavior} {files : Store}
  {others : List FlagRequest} {flags : Assoc String Flag}

/-- The registry has those of the flags that have been recorded, and no others. -/
def HasRecorded (locked : LockedFlags) (flags : Assoc String Flag) (r : Registry) : Prop :=
  ∀ name, Assoc.find? r.flags name = if name ∈ Assoc.keys locked.info then Assoc.find? flags name else none

theorem hasTexts_of_hasRecorded
    (hsame : HasRecorded locked flags ((opened given locked.values factories files).serveAll others).registry) :
    ((opened given locked.values factories files).serveAll others).registry.HasTexts := by
  intro name flag hflag
  have hsound := sound_serveAll (sound_opened given locked.values factories files) others
  obtain rfl := hsound.named hflag
  rw [hsame] at hflag
  have hname : flag.name ∈ Assoc.keys locked.values := by
    rw [LockedFlags.keys_values]
    by_contra hnew
    rw [if_neg hnew] at hflag
    cases hflag
  obtain ⟨text, htext⟩ := Assoc.exists_find?_of_mem_keys hname
  rw [textFor?, hsound.remembered]
  show ((Assoc.find? _ _).or (Assoc.find? locked.values _)).isSome
  rw [htext, Option.isSome_or, Option.isSome_some, Bool.or_true]

/-- A registry with the same flags that remembers what has been recorded is bound to have the recorded values, where its
command line says nothing. -/
theorem determines_of_readsBack (hback : locked.ReadsBack flags)
    (hsame : HasRecorded locked flags ((opened given locked.values factories files).serveAll others).registry)
    {entry : String × FlagInfo} (hentry : entry ∈ locked.info) (hgiven : Assoc.find? given entry.1 = none) :
    ∃ flag value, ((opened given locked.values factories files).serveAll others).registry.Determines flag value ∧
      entry = (flag.name, flag.infoOf value) := by
  have hnext := sound_opened given locked.values factories files
  have hsound := sound_serveAll hnext others
  obtain ⟨flag, value, text, hflag, htext, hparse, hallowed, rfl⟩ := hback entry hentry
  have hregistered : Assoc.find? ((opened given locked.values factories files).serveAll others).registry.flags flag.name =
      some flag := by
    have hname : flag.name ∈ Assoc.keys locked.info := List.mem_map.mpr ⟨_, hentry, rfl⟩
    rw [hsame, if_pos hname, hflag]
  have hfound : ((opened given locked.values factories files).serveAll others).registry.textFor? flag.name = some text := by
    rw [textFor?, hsound.commandLine, hsound.remembered]
    show (Assoc.find? given _).or (Assoc.find? locked.values _) = _
    rw [hgiven, htext]
    rfl
  refine ⟨flag, value, ⟨hregistered, ⟨text, hfound, hparse⟩, fun known hknown => ?_, hallowed⟩, rfl⟩
  obtain ⟨other, used, hother, hname, hkind, -, hgives⟩ := exists_source hnext rfl hknown
  cases hregistered.symm.trans hother
  have hused := Flag.parse_of_gives hgives (by rwa [hname])
  rw [Flag.parse_congr hkind hname] at hused
  cases hused.symm.trans hparse
  rfl

theorem keys_eq_names (hflags : ∀ entry ∈ locked.info, (Assoc.find? flags entry.1).isSome)
    (hkeys : (Assoc.keys locked.info).Pairwise (· < ·))
    (hsame : HasRecorded locked flags ((opened given locked.values factories files).serveAll others).registry) :
    Assoc.keys locked.info = ((opened given locked.values factories files).serveAll others).registry.names := by
  have hnodup := nodup_serveAll (s := opened given locked.values factories files) List.nodup_nil others
  have hperm : (Assoc.keys ((opened given locked.values factories files).serveAll others).registry.flags).Perm
      (Assoc.keys locked.info) := by
    refine (List.perm_ext_iff_of_nodup hnodup (hkeys.imp String.ne_of_lt)).mpr fun name => ?_
    constructor
    · intro hname
      obtain ⟨flag, hflag⟩ := Assoc.exists_find?_of_mem_keys hname
      rw [hsame] at hflag
      by_contra hnew
      rw [if_neg hnew] at hflag
      cases hflag
    · intro hname
      obtain ⟨entry, hentry, rfl⟩ := List.mem_map.mp hname
      obtain ⟨flag, hflag⟩ := Option.isSome_iff_exists.mp (hflags entry hentry)
      exact Assoc.mem_keys_of_find? ((hsame _).trans ((if_pos hname).trans hflag))
  refine (Text.sortTexts_eq_of_perm hperm (hkeys.imp fun hlt => ?_)).symm
  exact String.not_lt.mp fun hgt => String.lt_irrefl _ (String.lt_trans hlt hgt)

theorem hasRecorded_lock
    (hsame : HasRecorded locked flags ((opened given locked.values factories files).serveAll others).registry)
    {result : LockedFlags}
    (hlock : lock file ((opened given locked.values factories files).serveAll others) = .ok result t) :
    HasRecorded locked flags t.registry := by
  have htexts := hasTexts_of_hasRecorded hsame
  cases hopen : ((opened given locked.values factories files).serveAll others).registry.locked with
  | some recorded =>
    rw [lock_of_locked hopen] at hlock
    cases hlock
    exact hsame
  | none =>
    obtain ⟨registry, store, hsettle, -, rfl⟩ := (lock_eq_ok_iff hopen).mp hlock
    have hflags := flags_settle_of_hasTexts htexts
    rw [endState_of_ok hsettle] at hflags
    intro name
    show Assoc.find? registry.flags name = _
    rw [hflags, hsame]

theorem find?_values_of_readsBack (hback : locked.ReadsBack flags)
    (hsame : HasRecorded locked flags ((opened given locked.values factories files).serveAll others).registry)
    {result : LockedFlags}
    (hlock : lock file ((opened given locked.values factories files).serveAll others) = .ok result t)
    {name : String} (hgiven : Assoc.find? given name = none) :
    Assoc.find? result.values name = Assoc.find? locked.values name := by
  have hnext := sound_opened given locked.values factories files
  have hsame' := hasRecorded_lock hsame hlock
  have hlocked := locked_of_lock (sound_serveAll hnext others) hlock
  obtain rfl := serveAll_lock hlock
  have hsound := sound_serveAll hnext (others ++ [.lock file])
  have hshows := hsound.settled hlocked
  have hnames := keys_info_of_hasTexts hnext rfl (hasTexts_of_hasRecorded hsame') hlocked
  rw [LockedFlags.find?_values, LockedFlags.find?_values]
  refine congrArg _ ?_
  have hnone : ∀ {table : Assoc String FlagInfo}, name ∉ Assoc.keys table → Assoc.find? table name = none := by
    intro table hnew
    by_contra hsome
    obtain ⟨i, hi⟩ := Option.ne_none_iff_exists'.mp hsome
    exact hnew (Assoc.mem_keys_of_find? hi)
  by_cases hname : name ∈ Assoc.keys locked.info
  · obtain ⟨i, hi⟩ := Assoc.exists_find?_of_mem_keys hname
    obtain ⟨flag, value, hdetermines, hentry⟩ :=
      determines_of_readsBack hback hsame' (Assoc.mem_of_find? hi) hgiven
    cases hentry
    rw [hdetermines.find?_table hshows hnames, hi]
  · rw [hnone hname, hnone]
    rw [hnames]
    intro hregistered
    obtain ⟨flag, hflag⟩ := Assoc.exists_find?_of_mem_keys (Text.mem_sortOn.mp hregistered)
    rw [hsame', if_neg hname] at hflag
    cases hflag

end next

/-- An open registry that is bound to describe its flags as recorded is locked with the same result. -/
theorem answer_lock_of_foretells (hopen : s.registry.locked = none) (h : s.registry.Foretells locked.info)
    (hkeys : Assoc.keys locked.info = s.registry.names) (hfirst : firstDisallowed locked.info = none)
    (hhash : locked.hash = configHash locked.values) :
    answer (lock none) s = .ok locked ∧ ∀ path, answer (lock (some path)) s = .ok locked ∨
      ∃ e, (saveFlags s.store path locked.values).1 = .error e ∧ answer (lock (some path)) s = .error e := by
  obtain ⟨registry, hinfo⟩ := h.info hkeys
  have hsettle : settle s.registry = .ok locked registry := by
    have hfound : settle s.registry = .ok ⟨configHash locked.values, locked.info⟩ registry := settle_of_info hinfo hfirst
    rwa [← hhash] at hfound
  constructor
  · rw [answer_lock_none hopen, answer_of_ok hsettle]
  · intro path
    rcases hsave : saveFlags s.store path locked.values with ⟨e | _, files⟩
    · have hremember : remember (some path) locked.values s.store = (.error e, files) := by rw [remember_some, hsave]
      have hlock := (lock_eq_error_iff hopen).mpr (.inr ⟨locked, registry, files, hsettle, hremember, rfl⟩)
      exact .inr ⟨e, rfl, answer_of_error hlock⟩
    · have hremember : remember (some path) locked.values s.store = (.ok (), files) := by rw [remember_some, hsave]
      have hlock := (lock_eq_ok_iff hopen).mpr ⟨registry, files, hsettle, hremember, rfl⟩
      exact .inl (answer_of_ok hlock)

theorem locked_eq_of_foretells (hsound : Sound start s.registry) {result : LockedFlags}
    (hresult : s.registry.locked = some result) (hnames : Assoc.keys result.info = s.registry.names)
    (h : s.registry.Foretells locked.info) (hkeys : Assoc.keys locked.info = s.registry.names)
    (hhash : locked.hash = configHash locked.values) (hhash' : result.hash = configHash result.values) :
    result = locked := by
  obtain ⟨registry, hinfo⟩ := h.info hkeys
  have hsame := hinfo.symm.trans (hsound.info hresult hnames)
  have htable : result.info = locked.info := (EStateM.Result.ok.inj hsame).1.symm
  calc result = ⟨result.hash, result.info⟩ := rfl
    _ = ⟨configHash result.values, result.info⟩ := by rw [← hhash']
    _ = ⟨configHash locked.values, locked.info⟩ := by rw [LockedFlags.values, LockedFlags.values, htable]
    _ = locked := by rw [← hhash]

theorem mentioned_of_append_lock {requests : List FlagRequest} {file : Option String} {flag : Flag}
    (h : Mentioned (requests ++ [.lock file]) flag) : Mentioned requests flag := by
  obtain ⟨request, hrequest, hmentioned⟩ := h
  rcases List.mem_append.mp hrequest with hmem | hlast
  · exact ⟨request, hmem, hmentioned⟩
  · rw [List.mem_singleton.mp hlast] at hmentioned
    cases hmentioned

/-- **What a lock has recorded is what the next run has.** Locking an open registry writes the values to a file, which
gives them back if it may be read. A registry with the flags that have been recorded, which remembers their values, comes
to the same in whatever order its flags are registered and read, and whatever its factories do: a flag that the command
line does not name has the recorded text, and if the command line names no flag at all, the registry is locked with the
same result, unless its own file cannot be written. -/
theorem lock_roundTrip (commandLine remembered : Assoc String String) (factories : Assoc String FactoryBehavior)
    (store : Store) {requests : List FlagRequest}
    (htyped : ∀ flag, (opened commandLine remembered factories store).registry.Knows (Mentioned requests) flag →
      flag.HasTypedDefault (opened commandLine remembered factories store).registry)
    {file : String} {locked : LockedFlags} {t : Settings}
    (hlock : lock (some file) ((opened commandLine remembered factories store).serveAll requests) = .ok locked t)
    (hfloats : ∀ name x, Assoc.find? t.registry.values name = some (.float x) → x.ReadsBack) :
    (((opened commandLine remembered factories store).serveAll requests).registry.locked = none →
      t.store.refuses .read (locate (tidyText file)) = false → loadFlags t.store file = .ok locked.values) ∧
    ∀ (given : Assoc String String) (later : Assoc String FactoryBehavior) (files : Store)
      (others : List FlagRequest),
      let second := (opened given locked.values later files).serveAll others
      HasRecorded locked t.registry.flags second.registry →
      (∀ path result u, lock path second = .ok result u →
        ∀ name, Assoc.find? given name = none → Assoc.find? result.values name = Assoc.find? locked.values name) ∧
      ((∀ name ∈ Assoc.keys locked.values, Assoc.find? given name = none) →
        answer (lock none) second = .ok locked ∧
        ∀ path, answer (lock (some path)) second = .ok locked ∨
          ∃ e, (saveFlags second.store path locked.values).1 = .error e ∧
            answer (lock (some path)) second = .error e) := by
  have hstart := sound_opened commandLine remembered factories store
  have hlocked := locked_of_lock (sound_serveAll hstart requests) hlock
  obtain rfl := serveAll_lock hlock
  have hsound := sound_serveAll hstart (requests ++ [.lock (some file)])
  have hkeys := pairwise_keys_info hstart List.nodup_nil rfl hlocked
  refine ⟨fun hopen hread => ?_, fun given later files others => ?_⟩
  · obtain ⟨registry, saved, -, hsave, ht⟩ := (lock_eq_ok_iff hopen).mp hlock
    rw [ht] at hread ⊢
    rw [remember_some] at hsave
    rw [loadFlags_of_saveFlags hsave hread]
    exact congrArg Except.ok (readBack_eq hkeys)
  intro second hsame
  have hnext := sound_opened given locked.values later files
  have hsecond := sound_serveAll hnext others
  have hback : locked.ReadsBack ((opened commandLine remembered factories store).serveAll
      (requests ++ [.lock (some file)])).registry.flags := by
    refine readsBack_of_locked hsound hkeys hlocked (typed_serveAll hstart rfl fun flag hknows => ?_)
      fun {name x} => hfloats name x
    exact htyped flag (hknows.imp_right (Or.imp_left mentioned_of_append_lock))
  have hnames : Assoc.keys locked.info = second.registry.names := by
    refine keys_eq_names (fun entry hentry => ?_) hkeys hsame
    obtain ⟨flag, -, hflag, -⟩ := hsound.settled hlocked entry hentry
    exact Option.isSome_of_eq_some hflag
  refine ⟨fun path result u hresult name => find?_values_of_readsBack hback hsame hresult, fun hgiven => ?_⟩
  have hforetells : second.registry.Foretells locked.info := fun entry hentry => by
    refine determines_of_readsBack hback hsame hentry (hgiven entry.1 ?_)
    rw [LockedFlags.keys_values]
    exact List.mem_map_of_mem hentry
  obtain ⟨_, _, _, _, -, hsettle, -⟩ := exists_settle (s := opened commandLine remembered factories store) rfl hlocked
  obtain ⟨-, hfirst, hhash⟩ := info_of_settle hsettle
  cases hopen : second.registry.locked with
  | none => exact answer_lock_of_foretells hopen hforetells hnames hfirst hhash
  | some result =>
    obtain ⟨_, _, _, _, -, hsettle', -⟩ := exists_settle (s := opened given locked.values later files) rfl hopen
    have hnames' := keys_info_of_hasTexts hnext rfl (hasTexts_of_hasRecorded hsame) hopen
    obtain rfl := locked_eq_of_foretells hsecond hopen hnames' hforetells hnames hhash (info_of_settle hsettle').2.2
    exact ⟨answer_of_ok (lock_of_locked hopen none), fun path => .inl (answer_of_ok (lock_of_locked hopen (some path)))⟩

/-- A text that needs escapes, and a number with a fraction. -/
def titleAndScale : List Flag :=
  [{ kind := .string, name := "title", default := some (.string "a\"\\\n\u00e9") }, { kind := .float, name := "scale" }]

theorem lock_roundTrip_sample :
    ∃ locked t, lock (some "/out/flags") ((opened [("scale", "0.50")] [] [] {}).serveAll (titleAndScale.map .register)) =
        .ok locked t ∧
      locked.values = [("scale", "0.5"), ("title", "a\"\\\n\u00e9")] ∧
      loadFlags t.store "/out/flags" = .ok locked.values ∧
      answer (lock none) ((opened [] locked.values [] {}).serveAll (titleAndScale.reverse.map .register)) = .ok locked := by
  have hruns : answer (do
      let locked ← lock (some "/out/flags")
      return (locked.values, (← get).registry.values, (← get).store.refuses .read ["out", "flags"]) : SettingsM _)
      ((opened [("scale", "0.50")] [] [] {}).serveAll (titleAndScale.map .register)) =
        .ok ([("scale", "0.5"), ("title", "a\"\\\n\u00e9")],
          [("scale", .float (.finite false (2 ^ 52) (-53))), ("title", .string "a\"\\\n\u00e9")], false) := by
    decide +kernel
  have hflags : (endState (lock (some "/out/flags"))
      ((opened [("scale", "0.50")] [] [] {}).serveAll (titleAndScale.map .register))).registry.flags =
        [("title", titleAndScale[0]), ("scale", titleAndScale[1])] := by
    decide +kernel
  obtain ⟨u, hruns⟩ := answer_eq_ok_iff.mp hruns
  obtain ⟨locked, t, hlock, hruns⟩ := bind_eq_ok_iff.mp hruns
  obtain ⟨hvalues, hregistry, hread⟩ : locked.values = _ ∧ t.registry.values = _ ∧ _ = false := by
    simpa [Prod.ext_iff] using (EStateM.Result.ok.inj hruns).1
  rw [endState_of_ok hlock] at hflags
  have htyped : ∀ flag, (opened [("scale", "0.50")] [] [] {}).registry.Knows
      (Mentioned (titleAndScale.map .register)) flag →
      flag.HasTypedDefault (opened [("scale", "0.50")] [] [] {}).registry := by
    have hall : ∀ flag ∈ titleAndScale, (∀ value ∈ flag.default, value.kind = flag.kind) ∧ flag.factory = none := by
      decide
    rintro flag (⟨_, hfound⟩ | ⟨request, hrequest, hflag⟩ | ⟨id, call, hmentions⟩)
    · cases hfound
    · obtain ⟨known, hknown, rfl⟩ := List.mem_map.mp hrequest
      obtain rfl := List.mem_singleton.mp hflag
      obtain ⟨hdefault, hfactory⟩ := hall flag hknown
      exact ⟨hdefault, by simp [hfactory]⟩
    · exact absurd hmentions (FactoryProgram.not_mentions_ofOutcome (.ok none) flag)
  have hfloats : ∀ name x, Assoc.find? t.registry.values name = some (.float x) → x.ReadsBack := by
    intro name x h
    rw [hregistry] at h
    have hx : x = .finite false (2 ^ 52) (-53) := by
      rcases List.mem_cons.mp (Assoc.mem_of_find? h) with hscale | htitle
      · exact FlagValue.float.inj (Prod.mk.inj hscale).2
      · cases List.mem_singleton.mp htitle
    exact ⟨x, by rw [hx]; decide +kernel, rfl⟩
  obtain ⟨hload, hnext⟩ := lock_roundTrip [("scale", "0.50")] [] [] {} htyped hlock hfloats
  refine ⟨locked, t, hlock, hvalues, hload (by rfl) ?_, ?_⟩
  · have hplace : locate (tidyText "/out/flags") = ["out", "flags"] := by decide +kernel
    rwa [hplace]
  · refine (hnext [] [] {} (titleAndScale.reverse.map .register) (fun name => ?_)).2 (fun _ _ => rfl) |>.1
    rw [← LockedFlags.keys_values, hvalues, hflags]
    show Assoc.find? [("scale", titleAndScale[1]), ("title", titleAndScale[0])] name =
      if name ∈ ["scale", "title"] then
        Assoc.find? [("title", titleAndScale[0]), ("scale", titleAndScale[1])] name else none
    by_cases hscale : name = "scale"
    · rw [hscale]
      rfl
    · by_cases htitle : name = "title"
      · rw [htitle]
        rfl
      · simp [Assoc.find?, Ne.symm hscale, Ne.symm htitle, hscale, htitle]

/-- Three reasons for which what a lock has recorded does not come back: a registry that is locked already saves nothing,
the file may be one that can be written but not read, and a flag that a factory has registered during the lock has not
been recorded, so that it may be without a value in the next run. -/
theorem locked_values_may_not_come_back :
    answer (do
        let _ ← lock none
        let locked ← lock (some "/f")
        return (locked.values, ← load "/f") : SettingsM _)
      ((opened [("scale", "0.50")] [] [] {}).serveAll (titleAndScale.map .register)) =
        .ok ([("scale", "0.5"), ("title", "a\"\\\n\u00e9")], []) ∧
    answer (do
        let locked ← lock (some "/f")
        let loaded := answer (load "/f") (← get)
        return (locked.values, loaded) : SettingsM _)
      ((opened [("scale", "0.50")] [] [] { refuses := fun access _ => access = .read }).serveAll
        (titleAndScale.map .register)) =
        .ok ([("scale", "0.5"), ("title", "a\"\\\n\u00e9")],
          .error (.of (.flagsUnusable "/f" (.unreadable { code := .denied, path := "/f" })))) ∧
    answer (do
        let locked ← lock (some "/f")
        return (locked.values, Assoc.keys (← get).registry.flags) : SettingsM _)
      ((opened [] [] exampleFactories {}).serveAll [.register earlyFlag]) = .ok ([("early", "1")], ["early", "late"]) ∧
    answer (lock none)
      ((opened [] [("early", "1")] exampleFactories {}).serveAll [.register earlyFlag, .register lateFlag]) =
        .error (.of (.missingFlagValue "late")) := by
  decide +kernel

end Settings

end BuildPlan
