import BuildPlan.Document.Input
import BuildPlan.Document.Output
import BuildPlan.Proofs.Json.RoundTrip

/-!
# The format of input documents

`Input.requirements` lists what a document has to satisfy, each time with the complaint about one that does not, and
`Input.Describes` says which input the fields of a document stand for, field by field as they are written. A document is
read exactly if it satisfies everything, and otherwise the complaint is about the first thing that it does not satisfy
(`ofJson_spec`). Documents are values as `Json.read` gives them: whatever is wrong in one can be shown in the complaint.
-/

namespace BuildPlan

/-- Something that a document has to satisfy, and the complaint about one that does not. -/
structure Requirement where
  holds : Prop
  complaint : Cause

/-- The complaint is the one about the first requirement that does not hold. -/
def FirstFailing (requirements : List Requirement) (complaint : Cause) : Prop :=
  ∃ before failing after, requirements = before ++ failing :: after ∧ (∀ r ∈ before, r.holds) ∧ ¬ failing.holds ∧
    complaint = failing.complaint

/-- A field stands for a value: it is the value as `write` writes it, or it is missing and the value is the default. A
field without a default may not be missing. -/
def Gives {α : Type} (write : α → Json) (default : Option α) (fields : List (String × Json)) (name : String)
    (value : α) : Prop :=
  match Json.field? fields name with
  | some json => json = write value
  | none => default = some value

/-- The value that a message shows for a field; a missing one is shown like null. -/
def shownField (fields : List (String × Json)) (name : String) : Json := (Json.field? fields name).getD .null

namespace Json

/-- A table of texts as documents have it. -/
def ofTable (entries : Assoc String String) : Json := .object (textFields entries)

/-- The values that are equal to the number one: as an integer, with a fraction, and as a truth value. -/
def ones : List Json := [.integer 1, .real (.finite false (Nat.pow 2 52) (-52)), .bool true]

/-- The fields of a document. -/
def fields : Json → List (String × Json)
  | .object fields => fields
  | _ => []

end Json

/-- A mode as documents have it. -/
def Mode.json (mode : Mode) : Json := .string mode.name

namespace Input

/-- The document has the version that is read. -/
def HasVersion (fields : List (String × Json)) : Prop := ∃ value ∈ Json.ones, Json.field? fields "version" = some value

/-- The names of the fields that count. -/
def fieldNames : List String :=
  ["version", "mode", "source_dir", "build_dir_prefix", "working_dir", "cmdline_flags", "run_args", "test_args",
    "positive_patterns", "negative_patterns", "persist_flags"]

/-- The fields of a document stand for an input. -/
structure Describes (fields : List (String × Json)) (i : Input) : Prop where
  version : HasVersion fields
  mode : Gives Mode.json (some .build) fields "mode" i.mode
  sourceDir : Gives .string none fields "source_dir" i.sourceDir
  buildRoot : Gives .string none fields "build_dir_prefix" i.buildRoot
  workingDir : Gives .string none fields "working_dir" i.workingDir
  flags : Gives Json.ofTable (some []) fields "cmdline_flags" i.flags
  runArguments : Gives Json.ofTexts (some []) fields "run_args" i.runArguments
  testArguments : Gives Json.ofTexts (some []) fields "test_args" i.testArguments
  positive : Gives Json.ofTexts (some []) fields "positive_patterns" i.positive
  negative : Gives Json.ofTexts (some []) fields "negative_patterns" i.negative
  persist : i.persist = ((Json.field? fields "persist_flags").map Json.isTruthy).getD true

/-- A field that has to be a string. -/
def needsString (fields : List (String × Json)) (name : String) : Requirement :=
  ⟨∃ text, Gives .string none fields name text, .fieldNotString name⟩

/-- A field that has to be a list of strings where it is given. -/
def needsTexts (fields : List (String × Json)) (name : String) : Requirement :=
  ⟨∃ texts, Gives Json.ofTexts (some []) fields name texts, .fieldNotStringList name⟩

/-- What a document has to satisfy. -/
def requirements (document : Json) : List Requirement :=
  let fields := document.fields
  [⟨∃ fields, document = .object fields, .inputNotObject⟩,
    ⟨HasVersion fields, .inputVersion (shownField fields "version").text⟩,
    ⟨∃ mode, Gives Mode.json (some .build) fields "mode" mode, .unknownMode (shownField fields "mode").display⟩,
    needsString fields "source_dir",
    needsString fields "build_dir_prefix",
    needsString fields "working_dir",
    ⟨∃ entries, Gives Json.ofTable (some []) fields "cmdline_flags" entries, .fieldNotStringMap "cmdline_flags"⟩,
    needsTexts fields "run_args",
    needsTexts fields "test_args",
    needsTexts fields "positive_patterns",
    needsTexts fields "negative_patterns"]

end Input

/-! ### First failures -/

variable {α β : Type} {rs rs' : List Requirement} {complaint : Cause}

theorem not_firstFailing_nil : ¬ FirstFailing [] complaint := by
  rintro ⟨before, failing, after, h, -⟩
  exact List.append_ne_nil_of_right_ne_nil before (List.cons_ne_nil failing after) h.symm

theorem firstFailing_cons {r : Requirement} :
    FirstFailing (r :: rs) complaint ↔
      (¬ r.holds ∧ complaint = r.complaint) ∨ (r.holds ∧ FirstFailing rs complaint) := by
  constructor
  · rintro ⟨before, failing, after, h, hbefore, hfailing, hcomplaint⟩
    cases before with
    | nil =>
      obtain ⟨rfl, -⟩ := List.cons.inj h
      exact .inl ⟨hfailing, hcomplaint⟩
    | cons first before =>
      obtain ⟨rfl, hrest⟩ := List.cons.inj h
      obtain ⟨hfirst, hbefore⟩ := List.forall_mem_cons.mp hbefore
      exact .inr ⟨hfirst, before, failing, after, hrest, hbefore, hfailing, hcomplaint⟩
  · rintro (⟨hfailing, hcomplaint⟩ | ⟨hfirst, before, failing, after, h, hbefore, hfailing, hcomplaint⟩)
    · exact ⟨[], r, rs, rfl, nofun, hfailing, hcomplaint⟩
    · exact ⟨r :: before, failing, after, by rw [h, List.cons_append], List.forall_mem_cons.mpr ⟨hfirst, hbefore⟩,
        hfailing, hcomplaint⟩

theorem firstFailing_append :
    FirstFailing (rs ++ rs') complaint ↔
      FirstFailing rs complaint ∨ ((∀ r ∈ rs, r.holds) ∧ FirstFailing rs' complaint) := by
  induction rs with
  | nil => simp [not_firstFailing_nil]
  | cons r rs ih =>
    rw [List.cons_append, firstFailing_cons, ih, firstFailing_cons, List.forall_mem_cons, and_or_left, or_assoc,
      and_assoc]

theorem forall_holds_iff : (∀ r ∈ rs, r.holds) ↔ ∀ complaint, ¬ FirstFailing rs complaint := by
  induction rs with
  | nil => simp [not_firstFailing_nil]
  | cons r rs ih =>
    rw [List.forall_mem_cons, ih]
    simp only [firstFailing_cons]
    by_cases hr : r.holds <;> simp [hr]

theorem mem_of_firstFailing (h : FirstFailing rs complaint) : ∃ r ∈ rs, complaint = r.complaint := by
  obtain ⟨before, failing, after, rfl, -, -, hcomplaint⟩ := h
  exact ⟨failing, List.mem_append_right _ List.mem_cons_self, hcomplaint⟩

/-! ### Checks in a row -/

/-- A check answers what is given if all requirements hold, and else complains about the first that does not. -/
structure Checks (x : Except Cause α) (rs : List Requirement) (given : α → Prop) : Prop where
  ok : ∀ a, x = .ok a ↔ given a
  error : ∀ complaint, x = .error complaint ↔ FirstFailing rs complaint

namespace Checks

variable {x : Except Cause α} {given : α → Prop}

theorem exists_iff (h : Checks x rs given) : (∃ a, given a) ↔ ∀ r ∈ rs, r.holds := by
  rw [forall_holds_iff]
  simp only [← h.ok, ← h.error]
  cases x <;> simp

theorem of_ok (hok : ∀ a, x = .ok a ↔ given a) (herror : ∀ c, x = .error c → c = complaint) :
    Checks x [⟨∃ a, given a, complaint⟩] given where
  ok := hok
  error c := by
    simp only [firstFailing_cons, not_firstFailing_nil, and_false, or_false, ← hok]
    cases x with
    | ok a => simp
    | error c' =>
      rw [herror c' rfl]
      simp [eq_comm]

variable {f : α → Except Cause β}

theorem bind_eq_ok_iff (h : Checks x rs given) {b : β} : (x >>= f) = .ok b ↔ ∃ a, given a ∧ f a = .ok b := by
  simp only [← h.ok]
  cases x with
  | error c => exact ⟨nofun, fun ⟨_, hx, _⟩ => nomatch hx⟩
  | ok a => exact ⟨fun hf => ⟨a, rfl, hf⟩, fun ⟨_, hx, hf⟩ => by cases hx; exact hf⟩

theorem bind_eq_error_iff (h : Checks x rs given)
    (hf : ∀ a, given a → (f a = .error complaint ↔ FirstFailing rs' complaint)) :
    (x >>= f) = .error complaint ↔ FirstFailing (rs ++ rs') complaint := by
  rw [firstFailing_append, ← h.error, ← h.exists_iff]
  simp only [← h.ok] at hf ⊢
  cases x with
  | error c => simp [Bind.bind, Except.bind]
  | ok a =>
    show f a = .error complaint ↔ _
    rw [hf a rfl]
    simp

end Checks

/-! ### Values as documents have them -/

theorem mapM_eq_some_iff {read : α → Option β} {write : β → α} (h : ∀ a b, read a = some b ↔ a = write b) {xs : List α}
    {ys : List β} : xs.mapM read = some ys ↔ xs = ys.map write := by
  induction xs generalizing ys with
  | nil => cases ys <;> simp
  | cons x xs ih =>
    rw [List.mapM_cons]
    cases ys with
    | nil => simp [Option.bind_eq_some_iff]
    | cons y ys => simp [Option.bind_eq_some_iff, h, ih]

namespace Json

variable {json : Json}

theorem string?_eq_some_iff {text : String} : json.string? = some text ↔ json = .string text := by
  cases json <;> simp [string?]

theorem stringList?_eq_some_iff {texts : List String} : json.stringList? = some texts ↔ json = ofTexts texts := by
  cases json with
  | array items =>
    rw [stringList?, mapM_eq_some_iff fun _ _ => string?_eq_some_iff, ofTexts, array.injEq]
  | _ => simp [stringList?, ofTexts]

theorem stringMap?_eq_some_iff {entries : Assoc String String} :
    json.stringMap? = some entries ↔ json = ofTable entries := by
  cases json with
  | object fields =>
    have hentry : ∀ (field : String × Json) (entry : String × String),
        field.2.string?.map (field.1, ·) = some entry ↔ field = (entry.1, .string entry.2) := by
      rintro ⟨name, value⟩ ⟨name', text⟩
      simp only [Option.map_eq_some_iff, string?_eq_some_iff]
      constructor
      · rintro ⟨text, rfl, heq⟩
        cases heq
        rfl
      · intro heq
        cases heq
        exact ⟨text, rfl, rfl⟩
    rw [stringMap?, mapM_eq_some_iff hentry, ofTable, object.injEq, textFields]
  | _ => simp [stringMap?, ofTable]

theorem isOne_iff : json.isOne = true ↔ json ∈ ones := by
  have hone : Numeral.Binary64.ofInt 1 = .finite false (Nat.pow 2 52) (-52) := by decide +kernel
  cases json with
  | real x =>
    rw [isOne, hone]
    cases x <;> simp [Numeral.Binary64.sameValue, ones, and_assoc]
  | _ => simp [isOne, ones]

end Json

namespace Mode

theorem ofName?_eq_some_iff {name : String} {mode : Mode} : ofName? name = some mode ↔ name = mode.name := by
  constructor
  · intro h
    rw [ofName?] at h
    have hname := List.find?_some h
    exact (of_decide_eq_true hname).symm
  · rintro rfl
    cases mode <;> decide

theorem read_eq_some_iff {json : Json} {mode : Mode} : json.string?.bind ofName? = some mode ↔ json = mode.json := by
  simp [Option.bind_eq_some_iff, Json.string?_eq_some_iff, ofName?_eq_some_iff, Mode.json]

end Mode

/-! ### Fields -/

theorem Gives.congr {write : α → Json} {default : Option α} {fields fields' : List (String × Json)} {name : String}
    {value : α} (h : Json.field? fields' name = Json.field? fields name)
    (hgives : Gives write default fields name value) : Gives write default fields' name value := by
  unfold Gives at *
  rwa [h]

namespace Input

variable {fields fields' : List (String × Json)} {i : Input}

theorem checks_readField {read : Json → Option α} {write : α → Json} (h : ∀ json a, read json = some a ↔ json = write a)
    (default : Option α) (complaint : Json → Cause) (fields : List (String × Json)) (name : String) :
    Checks (readField read default complaint fields name)
      [⟨∃ a, Gives write default fields name a, complaint (shownField fields name)⟩]
      (Gives write default fields name) := by
  unfold readField Gives shownField
  cases Json.field? fields name with
  | some json =>
    simp only [← h, Option.getD_some]
    cases read json <;> exact .of_ok (by simp) (by simp [eq_comm])
  | none => cases default <;> exact .of_ok (by simp) (by simp [eq_comm])

theorem checks_modeField (fields : List (String × Json)) :
    Checks (modeField fields)
      [⟨∃ mode, Gives Mode.json (some .build) fields "mode" mode, .unknownMode (shownField fields "mode").display⟩]
      (Gives Mode.json (some .build) fields "mode") :=
  checks_readField (fun _ _ => Mode.read_eq_some_iff) _ _ _ _

theorem checks_stringField (fields : List (String × Json)) (name : String) :
    Checks (stringField fields name) [needsString fields name] (Gives .string none fields name) :=
  checks_readField (fun _ _ => Json.string?_eq_some_iff) _ _ _ _

theorem checks_listField (fields : List (String × Json)) (name : String) :
    Checks (listField fields name) [needsTexts fields name] (Gives Json.ofTexts (some []) fields name) :=
  checks_readField (fun _ _ => Json.stringList?_eq_some_iff) _ _ _ _

theorem checks_mapField (fields : List (String × Json)) (name : String) :
    Checks (mapField fields name)
      [⟨∃ entries, Gives Json.ofTable (some []) fields name entries, .fieldNotStringMap name⟩]
      (Gives Json.ofTable (some []) fields name) :=
  checks_readField (fun _ _ => Json.stringMap?_eq_some_iff) _ _ _ _

theorem isOne_shownField : (shownField fields "version").isOne = true ↔ HasVersion fields := by
  rw [Json.isOne_iff, shownField, HasVersion]
  cases Json.field? fields "version" with
  | none => simp [Json.ones]
  | some value => simp

theorem checks_fieldsOf (document : Json) :
    Checks (fieldsOf document)
      [⟨∃ fields, document = .object fields, .inputNotObject⟩,
        ⟨HasVersion document.fields, .inputVersion (shownField document.fields "version").text⟩]
      fun fields => document = .object fields ∧ HasVersion fields := by
  have hfields : ∀ fields, fieldsOf (.object fields) =
      if (shownField fields "version").isOne then .ok fields
      else .error (.inputVersion (shownField fields "version").text) := fun _ => rfl
  constructor
  · intro fields
    cases document with
    | object fields' =>
      rw [hfields, Json.object.injEq]
      split
      case isTrue hone =>
        rw [isOne_shownField] at hone
        constructor
        · intro h
          cases h
          exact ⟨rfl, hone⟩
        · rintro ⟨rfl, -⟩
          rfl
      case isFalse hone =>
        rw [isOne_shownField] at hone
        constructor
        · exact nofun
        · rintro ⟨rfl, hversion⟩
          exact absurd hversion hone
    | _ => exact ⟨nofun, fun h => nomatch h.1⟩
  · intro complaint
    simp only [firstFailing_cons, not_firstFailing_nil, and_false, or_false]
    cases document with
    | object fields =>
      rw [hfields, Json.fields, ← isOne_shownField]
      by_cases hone : (shownField fields "version").isOne = true
      · simp [hone]
      · simp [hone, eq_comm]
    | _ => simp [fieldsOf, eq_comm]

/-- The input of a document is made of what its fields stand for. -/
theorem ofJson_eq_ok_iff {document : Json} {i : Input} :
    ofJson document = .ok i ↔ ∃ fields, document = .object fields ∧ Describes fields i := by
  simp only [ofJson, (checks_fieldsOf document).bind_eq_ok_iff, (checks_modeField _).bind_eq_ok_iff,
    (checks_stringField _ _).bind_eq_ok_iff, (checks_mapField _ _).bind_eq_ok_iff,
    (checks_listField _ _).bind_eq_ok_iff]
  constructor
  · rintro ⟨fields, ⟨hdocument, hversion⟩, mode, hmode, sourceDir, hsource, buildRoot, hroot, workingDir, hworking, flags,
      hflags, runArguments, hrun, testArguments, htest, positive, hpositive, negative, hnegative, h⟩
    cases h
    exact ⟨fields, hdocument, hversion, hmode, hsource, hroot, hworking, hflags, hrun, htest, hpositive, hnegative, rfl⟩
  · rintro ⟨fields, hdocument, h⟩
    refine ⟨fields, ⟨hdocument, h.version⟩, i.mode, h.mode, i.sourceDir, h.sourceDir, i.buildRoot, h.buildRoot,
      i.workingDir, h.workingDir, i.flags, h.flags, i.runArguments, h.runArguments, i.testArguments, h.testArguments,
      i.positive, h.positive, i.negative, h.negative, ?_⟩
    rw [← h.persist]
    rfl

/-- The complaint about a document is about the first requirement that it does not satisfy. -/
theorem ofJson_eq_error_iff {document : Json} {complaint : Cause} :
    ofJson document = .error complaint ↔ FirstFailing (requirements document) complaint := by
  refine (checks_fieldsOf document).bind_eq_error_iff ?_
  rintro fields ⟨rfl, -⟩
  refine (checks_modeField fields).bind_eq_error_iff fun mode _ => ?_
  refine (checks_stringField fields _).bind_eq_error_iff fun sourceDir _ => ?_
  refine (checks_stringField fields _).bind_eq_error_iff fun buildRoot _ => ?_
  refine (checks_stringField fields _).bind_eq_error_iff fun workingDir _ => ?_
  refine (checks_mapField fields _).bind_eq_error_iff fun flags _ => ?_
  refine (checks_listField fields _).bind_eq_error_iff fun runArguments _ => ?_
  refine (checks_listField fields _).bind_eq_error_iff fun testArguments _ => ?_
  refine (checks_listField fields _).bind_eq_error_iff fun positive _ => ?_
  refine (checks_listField fields _).bind_eq_error_iff fun negative _ => ?_
  exact ⟨nofun, fun h => absurd h not_firstFailing_nil⟩

theorem checks_ofJson (document : Json) :
    Checks (ofJson document) (requirements document) fun i =>
      ∃ fields, document = .object fields ∧ Describes fields i :=
  ⟨fun _ => ofJson_eq_ok_iff, fun _ => ofJson_eq_error_iff⟩

theorem kind_of_mem_requirements {document : Json} {r : Requirement} (h : r ∈ requirements document) :
    r.complaint.kind = .input := by
  simp only [requirements, needsString, needsTexts, List.mem_cons, List.not_mem_nil, or_false] at h
  rcases h with rfl | rfl | rfl | rfl | rfl | rfl | rfl | rfl | rfl | rfl | rfl <;> rfl

/-! ### Other fields -/

theorem Describes.congr (h : ∀ name ∈ fieldNames, Json.field? fields' name = Json.field? fields name)
    (hi : Describes fields i) : Describes fields' i where
  version := by
    rw [HasVersion, h _ (by decide)]
    exact hi.version
  mode := hi.mode.congr (h _ (by decide))
  sourceDir := hi.sourceDir.congr (h _ (by decide))
  buildRoot := hi.buildRoot.congr (h _ (by decide))
  workingDir := hi.workingDir.congr (h _ (by decide))
  flags := hi.flags.congr (h _ (by decide))
  runArguments := hi.runArguments.congr (h _ (by decide))
  testArguments := hi.testArguments.congr (h _ (by decide))
  positive := hi.positive.congr (h _ (by decide))
  negative := hi.negative.congr (h _ (by decide))
  persist := by
    rw [h _ (by decide)]
    exact hi.persist

theorem requirements_congr (h : ∀ name ∈ fieldNames, Json.field? fields' name = Json.field? fields name) :
    requirements (.object fields') = requirements (.object fields) := by
  obtain ⟨hversion, hmode, hsource, hroot, hworking, hflags, hrun, htest, hpositive, hnegative, -⟩ :
      _ ∧ _ ∧ _ ∧ _ ∧ _ ∧ _ ∧ _ ∧ _ ∧ _ ∧ _ ∧ _ := by simpa only [fieldNames, List.forall_mem_cons] using h
  simp [requirements, needsString, needsTexts, HasVersion, Gives, shownField, Json.fields, *]

end Input

/-- **A document is read exactly if it has the format**, and then its fields are the input. Otherwise the complaint is
about the first requirement that it does not satisfy. Other fields make no difference. -/
theorem ofJson_spec (document : Json) :
    ((∃ i, Input.ofJson document = .ok i) ↔ ∀ r ∈ Input.requirements document, r.holds) ∧
    (∀ i, Input.ofJson document = .ok i ↔ ∃ fields, document = .object fields ∧ Input.Describes fields i) ∧
    (∀ complaint, Input.ofJson document = .error complaint ↔
      FirstFailing (Input.requirements document) complaint) ∧
    (∀ complaint, Input.ofJson document = .error complaint → complaint.kind = .input) ∧
    ∀ fields fields', document = .object fields →
      (∀ name ∈ Input.fieldNames, Json.field? fields' name = Json.field? fields name) →
      Input.ofJson (.object fields') = Input.ofJson document := by
  refine ⟨?_, fun i => Input.ofJson_eq_ok_iff, fun complaint => Input.ofJson_eq_error_iff, fun complaint h => ?_, ?_⟩
  · simp only [Input.ofJson_eq_ok_iff]
    exact (Input.checks_ofJson document).exists_iff
  · obtain ⟨r, hr, rfl⟩ := mem_of_firstFailing (Input.ofJson_eq_error_iff.mp h)
    exact Input.kind_of_mem_requirements hr
  · rintro fields fields' rfl hsame
    cases hread : Input.ofJson (.object fields) with
    | ok i =>
      obtain ⟨_, heq, hi⟩ := Input.ofJson_eq_ok_iff.mp hread
      cases heq
      exact Input.ofJson_eq_ok_iff.mpr ⟨fields', rfl, hi.congr hsame⟩
    | error complaint =>
      rw [Input.ofJson_eq_error_iff] at hread ⊢
      rwa [Input.requirements_congr hsame]

theorem ofJson_spec_sample :
    let directories : List (String × Json) :=
      [("source_dir", .string "/src"), ("build_dir_prefix", .string "/out/build"), ("working_dir", .string "/")]
    let plain : List (String × Json) :=
      [("version", .bool true), ("mode", .string "run"), ("persist_flags", .real .nan)]
    let wrong : List (String × Json) := [("source_dir", .null), ("mode", .array [.integer 1]), ("version", .integer 1)]
    Input.ofJson (.object (("comment", .null) :: plain ++ directories)) =
        .ok { mode := .run, sourceDir := "/src", buildRoot := "/out/build", workingDir := "/" } ∧
      Input.ofJson (.object wrong) = .error (.unknownMode "[1]") ∧ (Cause.unknownMode "[1]").kind = .input := by
  intro directories plain wrong
  obtain ⟨-, hok, -, -, hother⟩ := ofJson_spec (.object (plain ++ directories))
  obtain ⟨-, -, herror, hkind, -⟩ := ofJson_spec (.object wrong)
  have hwrong : Input.ofJson (.object wrong) = .error (.unknownMode "[1]") := by
    refine (herror _).mpr ⟨(Input.requirements (.object wrong)).take 2, _, _, rfl, ?_, ?_, by decide +kernel⟩
    · exact List.forall_mem_cons.mpr ⟨⟨wrong, rfl⟩, List.forall_mem_singleton.mpr ⟨.integer 1, List.mem_cons_self, rfl⟩⟩
    · rintro ⟨mode, hmode⟩
      cases hmode
  have hcomment : "comment" ∉ Input.fieldNames := by decide
  refine ⟨?_, hwrong, hkind _ hwrong⟩
  rw [hother _ (("comment", .null) :: plain ++ directories) rfl fun name hname =>
    if_neg (ne_of_mem_of_not_mem hname hcomment).symm, hok]
  refine ⟨_, rfl, ?_⟩
  exact ⟨⟨.bool true, by simp [Json.ones], rfl⟩, rfl, rfl, rfl, rfl, rfl, rfl, rfl, rfl, rfl, rfl⟩

end BuildPlan
