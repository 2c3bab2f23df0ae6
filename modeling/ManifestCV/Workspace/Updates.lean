import ManifestCV.Foundation.Json
import ManifestCV.Foundation.Rows
import Mathlib.Data.List.Basic

namespace ManifestCV.Workspace

open Foundation

/-- What a column holds; dates are counted in days, times of day and timestamps in microseconds. -/
inductive Value where
  | integer (n : Nat)
  | text (s : Str)
  | date (days : Nat)
  | time (microseconds : Nat)
  | bytes (content : List UInt8)
  | timestamp (microseconds : Nat)
  deriving DecidableEq

namespace Value

def isInteger : Value → Bool
  | integer _ => true
  | _ => false

def isString : Value → Bool
  | text s => !s.contains '\x00'
  | _ => false

def isStringOf (length : Nat) : Value → Bool
  | text s => s.length ≤ length && !s.contains '\x00'
  | _ => false

def isDate : Value → Bool
  | date _ => true
  | _ => false

def isTime : Value → Bool
  | time _ => true
  | _ => false

def isBinary : Value → Bool
  | bytes _ => true
  | _ => false

def isTimestamp : Value → Bool
  | timestamp _ => true
  | _ => false

def isText : Value → Bool
  | text _ => true
  | _ => false

def isOneOf (choices : List Str) : Value → Bool
  | text s => choices.contains s
  | _ => false

end Value

def required (name : String) (holds : Value → Bool) : Column Str Value := ⟨name.toList, false, holds⟩

/-- `Column(..., nullable=True)`, or a field that may be `None`. -/
def optional (name : String) (holds : Value → Bool) : Column Str Value := ⟨name.toList, true, holds⟩

def applicationStatuses : List Str := ["applied", "interviewing", "offered", "rejected"].map String.toList

def applicationRecords : List (Column Str Value) := [
  required "id" Value.isInteger, required "user_id" Value.isInteger, required "company_name" Value.isString,
  optional "role" (Value.isStringOf 200), required "application_date" Value.isDate,
    optional "application_time" Value.isTime,
  required "status" Value.isString, required "resume_content_snapshot" Value.isString,
  required "template_id_snapshot" Value.isString, optional "template_version_snapshot" (Value.isStringOf 80),
  required "pdf_snapshot" Value.isBinary, optional "resume_workspace_id" Value.isInteger,
  optional "resume_revision_id" Value.isInteger, optional "document_snapshot" Value.isString,
  optional "pdf_storage_key_snapshot" (Value.isStringOf 500),
    optional "pdf_sha256_snapshot" (Value.isStringOf 64),
  required "created_at" Value.isTimestamp, required "updated_at" Value.isTimestamp]

def applicationDetailRead : List (Column Str Value) := [
  required "id" Value.isInteger, required "company_name" Value.isText, optional "role" Value.isText,
  required "application_date" Value.isDate, optional "application_time" Value.isTime,
  required "status" (Value.isOneOf applicationStatuses), required "template_id_snapshot" Value.isText,
  required "created_at" Value.isTimestamp, required "updated_at" Value.isTimestamp,
  optional "resume_workspace_id" Value.isInteger, optional "resume_revision_id" Value.isInteger,
  required "resume_content_snapshot" Value.isText, optional "document_snapshot" Value.isText,
  optional "pdf_storage_key_snapshot" Value.isText, optional "pdf_sha256_snapshot" Value.isText]

def careerKnowledgeBases : List (Column Str Value) := [
  required "id" Value.isInteger, required "user_id" Value.isInteger, required "raw_input" Value.isString,
  required "content" Value.isString, required "created_at" Value.isTimestamp,
    required "updated_at" Value.isTimestamp]

def careerKnowledgeBaseRead : List (Column Str Value) := [
  required "id" Value.isInteger, required "raw_input" Value.isText, required "content" Value.isText,
  required "created_at" Value.isTimestamp, required "updated_at" Value.isTimestamp]

structure Field where
  name : Str
  read : Json → Option (Option Value)

def orNull (read : Json → Option Value) : Json → Option (Option Value)
  | .null => some none
  | json => (read json).map some

def readString (minLength maxLength : Nat) : Json → Option Value
  | .str s => if minLength ≤ s.length ∧ s.length ≤ maxLength then some (.text s) else none
  | _ => none

def readLiteral (choices : List Str) : Json → Option Value
  | .str s => if choices.contains s then some (.text s) else none
  | _ => none

/-- `model_dump(exclude_unset=True)` of the object that a body is read to. -/
def dumpFields (body : Dict) : List Field → Option (List (Str × Option Value))
  | [] => some []
  | field :: fields =>
    match body.lookup field.name with
    | none => dumpFields body fields
    | some json => (field.read json).bind fun value => (dumpFields body fields).map ((field.name, value) :: ·)

section Schemas

-- What pydantic takes for a date and for a time of day.
variable (parseDate parseTime : Json → Option Nat)

def applicationUpdate : List Field := [
  ⟨"company_name".toList, orNull (readString 1 200)⟩,
  ⟨"application_date".toList, orNull fun json => (parseDate json).map .date⟩,
  ⟨"application_time".toList, orNull fun json => (parseTime json).map .time⟩,
  ⟨"status".toList, orNull (readLiteral applicationStatuses)⟩]

end Schemas

def careerKnowledgeBaseUpdate : List Field := [
  ⟨"raw_input".toList, orNull (readString 1 50000)⟩, ⟨"content".toList, orNull (readString 1 50000)⟩]

inductive UpdateOutcome where
  | answered (row : Row Str Value)
  | refused (status : Nat)
  | databaseError
  | invalidResponse

section Routes

-- The database's clock.
variable (now : Nat)

local instance : LawfulBEq Str := inferInstance

/-- The row once the flush has sent what differs, with the `onupdate` of `updated_at`. -/
def flushedRow (row : Row Str Value) (fields : List (Str × Option Value)) : Row Str Value :=
  if ∀ update ∈ fields, row update.1 = update.2 then row
  else setAll row (fields ++ [("updated_at".toList, some (.timestamp now))])

/-- The `setattr` loop of a repository, its commit and the response model. -/
def storeUpdate (table response : List (Column Str Value)) (row : Row Str Value)
    (fields : List (Str × Option Value)) : UpdateOutcome :=
  let updated := flushedRow now row fields
  if Fits table updated then if Fits response updated then .answered updated else .invalidResponse
    else .databaseError

def updateMyApplication (row : Row Str Value) (fields : List (Str × Option Value)) : UpdateOutcome :=
  storeUpdate now applicationRecords applicationDetailRead row fields

/-- `structured` is what Gemini makes of the raw input, if it answers. -/
def updateMyCareerKnowledgeBase (structured : Option Str) (row : Row Str Value)
    (fields : List (Str × Option Value)) : UpdateOutcome :=
  if "raw_input".toList ∈ fields.map Prod.fst then
    match structured with
    | none => .refused 502
    | some content =>
      storeUpdate now careerKnowledgeBases careerKnowledgeBaseRead row
        (setKey fields "content".toList (some (.text content)))
  else storeUpdate now careerKnowledgeBases careerKnowledgeBaseRead row fields

end Routes

def UpdateOutcome.Stored (table response : List (Column Str Value)) : UpdateOutcome → Prop
  | .answered row => Fits table row ∧ Fits response row
  | .refused _ => True
  | .databaseError => False
  | .invalidResponse => False

def storableJson : Json → Bool
  | .null => false
  | .str s => !s.contains '\x00'
  | _ => true

/-- The body sets no required column to null, and no text has a NUL character in it. -/
def FillsApplication (body : Dict) : Prop :=
  (∀ json, body.lookup "company_name".toList = some json → storableJson json = true) ∧
    body.lookup "application_date".toList ≠ some .null ∧ body.lookup "status".toList ≠ some .null

/-- So does one of a knowledge base; the structured text stands for the content where a raw input is given. -/
def FillsKnowledge (body : Dict) (structured : Option Str) : Prop :=
  match body.lookup "raw_input".toList with
  | none => ∀ json, body.lookup "content".toList = some json → storableJson json = true
  | some raw => ∀ content, structured = some content → storableJson raw = true ∧ !content.contains '\x00'

section Reading

variable {body : Dict} {fields : List Field} {updates : List (Str × Option Value)}

theorem dumpFields_keys (dumped : dumpFields body fields = some updates) :
    (updates.map Prod.fst).Sublist (fields.map (·.name)) := by
  induction fields generalizing updates with
  | nil =>
    cases dumped
    exact .slnil
  | cons field fields ih =>
    rw [dumpFields] at dumped
    split at dumped
    · exact (ih dumped).cons _
    · obtain ⟨value, _, dumped⟩ := Option.bind_eq_some_iff.mp dumped
      obtain ⟨rest, later, rfl⟩ := Option.map_eq_some_iff.mp dumped
      exact (ih later).cons_cons _

theorem mem_dumpFields (dumped : dumpFields body fields = some updates) {name : Str} {value : Option Value} :
    (name, value) ∈ updates ↔ ∃ field ∈ fields, field.name = name ∧ ∃ json, body.lookup name = some json ∧
    field.read json = some value := by
  induction fields generalizing updates with
  | nil =>
    cases dumped
    simp
  | cons field fields ih =>
    rw [dumpFields] at dumped
    rw [List.exists_mem_cons_iff]
    split at dumped
    · rename_i missing
      rw [ih dumped]
      constructor
      · exact .inr
      · rintro (⟨rfl, json, given, _⟩ | later)
        · rw [missing] at given
          cases given
        · exact later
    · rename_i json given
      obtain ⟨first, read, dumped⟩ := Option.bind_eq_some_iff.mp dumped
      obtain ⟨rest, later, rfl⟩ := Option.map_eq_some_iff.mp dumped
      rw [List.mem_cons, ih later]
      apply or_congr_left
      constructor
      · intro same
        cases same
        exact ⟨rfl, json, given, read⟩
      · rintro ⟨rfl, other, given', read'⟩
        cases given.symm.trans given'
        cases read.symm.trans read'
        rfl

theorem dumpFields_read (dumped : dumpFields body fields = some updates) {field : Field}
    (member : field ∈ fields) {json : Json} (given : body.lookup field.name = some json) :
    ∃ value, field.read json = some value := by
  induction fields generalizing updates with
  | nil => cases member
  | cons first fields ih =>
    rw [dumpFields] at dumped
    split at dumped
    · rename_i missing
      rcases List.mem_cons.mp member with rfl | member
      · rw [missing] at given
        cases given
      · exact ih dumped member
    · rename_i other given'
      obtain ⟨value, read, dumped⟩ := Option.bind_eq_some_iff.mp dumped
      obtain ⟨rest, later, rfl⟩ := Option.map_eq_some_iff.mp dumped
      rcases List.mem_cons.mp member with rfl | member
      · cases given'.symm.trans given
        exact ⟨value, read⟩
      · exact ih later member

end Reading

def AdmittedBy (columns : List (Column Str Value)) (name : Str) (value : Option Value) : Prop :=
  ∀ column ∈ columns.filter (·.name = name), column.admits value = true

section Storing

variable {table response columns : List (Column Str Value)} {row : Row Str Value}
  {updates : List (Str × Option Value)}

theorem fits_flushedRow (now : Nat) (fits : Fits columns row) (unique : (updates.map Prod.fst).Nodup)
    (untouched : "updated_at".toList ∉ updates.map Prod.fst)
    (stamped : AdmittedBy columns "updated_at".toList (some (.timestamp now))) :
    Fits columns (flushedRow now row updates) ↔ ∀ update ∈ updates, AdmittedBy columns update.1 update.2 := by
  have named : (∀ column ∈ columns, ∀ value, (column.name, value) ∈ updates → column.admits value = true) ↔
      ∀ update ∈ updates, AdmittedBy columns update.1 update.2 := by
    constructor
    · intro each update member column inside
      obtain ⟨inside, same⟩ := List.mem_filter.mp inside
      apply each column inside
      rw [of_decide_eq_true same]
      exact member
    · intro each column inside value member
      exact each _ member column (List.mem_filter.mpr ⟨inside, decide_eq_true rfl⟩)
  unfold flushedRow
  split
  · rename_i same
    rw [← named]
    constructor
    · intro _ column inside value member
      have admitted := fits column inside
      rwa [same _ member] at admitted
    · intro _
      exact fits
  · have unique' : ((updates ++ [("updated_at".toList, some (Value.timestamp now))]).map Prod.fst).Nodup := by
      rw [List.map_append, List.nodup_append_comm]
      exact List.nodup_cons.mpr ⟨untouched, unique⟩
    rw [fits_setAll unique' fits, ← named]
    constructor
    · intro each column inside value member
      exact each column inside value (List.mem_append_left _ member)
    · intro each column inside value member
      rcases List.mem_append.mp member with member | member
      · exact each column inside value member
      · obtain ⟨same, rfl⟩ := Prod.mk.inj (List.mem_singleton.mp member)
        exact stamped column (List.mem_filter.mpr ⟨inside, decide_eq_true same⟩)

theorem storeUpdate_stored (now : Nat) (fits : Fits table row) (readable : Fits response row)
    (unique : (updates.map Prod.fst).Nodup) (untouched : "updated_at".toList ∉ updates.map Prod.fst)
    (stamped : AdmittedBy table "updated_at".toList (some (.timestamp now)))
    (stamped' : AdmittedBy response "updated_at".toList (some (.timestamp now))) :
    (storeUpdate now table response row updates).Stored table response ↔
      ∀ update ∈ updates, AdmittedBy table update.1 update.2 ∧ AdmittedBy response update.1 update.2 := by
  have both := and_congr (fits_flushedRow now fits unique untouched stamped)
    (fits_flushedRow now readable unique untouched stamped')
  rw [← forall₂_and] at both
  rw [← both]
  unfold storeUpdate
  by_cases stored : Fits table (flushedRow now row updates)
  · by_cases answered : Fits response (flushedRow now row updates)
    · simp only [stored, answered, if_true, UpdateOutcome.Stored, and_self]
    · simp only [stored, answered, if_true, if_false, UpdateOutcome.Stored, and_false]
  · simp only [stored, if_false, UpdateOutcome.Stored, false_and]

theorem admittedBy_single {name : Str} {column : Column Str Value}
    (only : columns.filter (·.name = name) = [column]) (value : Option Value) :
    AdmittedBy columns name value ↔ column.admits value = true := by
  rw [AdmittedBy, only, List.forall_mem_singleton]

end Storing

section Fields

variable {name : String} {json : Json} {value : Option Value}

theorem string_admitted {minLength maxLength : Nat}
    (read : orNull (readString minLength maxLength) json = some value) :
    (required name Value.isString).admits value = true ∧ (required name Value.isText).admits value = true ↔
    storableJson json = true := by
  cases json with
  | null =>
    cases read
    simp [required, Column.admits, storableJson]
  | str s =>
    rw [orNull, readString] at read
    split at read
    · cases read
      simp [required, Column.admits, storableJson, Value.isString, Value.isText]
    · cases read
    · nofun
  | _ => cases read

theorem required_admitted {read : Json → Option Value} {holds answers : Value → Bool}
    (held : ∀ json value, read json = some value → holds value = true ∧ answers value = true)
    (given : orNull read json = some value) :
    (required name holds).admits value = true ∧ (required name answers).admits value = true ↔
    json ≠ .null := by
  by_cases null : json = .null
  · subst null
    cases given
    simp [required, Column.admits]
  · have later : (read json).map some = some value := by
      rw [← given, orNull]
      exact null
    obtain ⟨v, same, rfl⟩ := Option.map_eq_some_iff.mp later
    have both := held json v same
    simp [required, Column.admits, both, null]

theorem optional_admitted {read : Json → Option Value} {holds answers : Value → Bool}
    (held : ∀ json value, read json = some value → holds value = true ∧ answers value = true)
    (given : orNull read json = some value) :
    (optional name holds).admits value = true ∧ (optional name answers).admits value = true := by
  by_cases null : json = .null
  · subst null
    cases given
    simp [optional, Column.admits]
  · have later : (read json).map some = some value := by
      rw [← given, orNull]
      exact null
    obtain ⟨v, same, rfl⟩ := Option.map_eq_some_iff.mp later
    exact held json v same

theorem literal_held {json : Json} {value : Value}
    (read : readLiteral applicationStatuses json = some value) :
    value.isString = true ∧ value.isOneOf applicationStatuses = true := by
  cases json with
  | str s =>
    rw [readLiteral] at read
    split at read
    · rename_i chosen
      cases read
      have plain : ∀ status ∈ applicationStatuses, (!status.contains '\x00') = true := by decide
      exact ⟨plain s (List.contains_iff_mem.mp chosen), chosen⟩
    · cases read
  | _ => cases read

end Fields

/-- Something holds of all updates if the values that the body gives meet what that asks of them. -/
theorem forall_dumpFields {body : Dict} {fields : List Field} {updates : List (Str × Option Value)}
    (dumped : dumpFields body fields = some updates) {holds : Str → Option Value → Prop}
    {accepts : Str → Json → Prop} (same : ∀ field ∈ fields, ∀ json value, field.read json = some value →
      (holds field.name value ↔ accepts field.name json)) :
    (∀ update ∈ updates, holds update.1 update.2) ↔
      ∀ field ∈ fields, ∀ json, body.lookup field.name = some json → accepts field.name json := by
  constructor
  · intro each field member json given
    obtain ⟨value, read⟩ := dumpFields_read dumped member given
    have held := each (field.name, value)
      ((mem_dumpFields dumped).mpr ⟨field, member, rfl, json, given, read⟩)
    exact (same field member json value read).mp held
  · rintro each ⟨name, value⟩ member
    obtain ⟨field, inside, rfl, json, given, read⟩ := (mem_dumpFields dumped).mp member
    exact (same field inside json value read).mpr (each field inside json given)

section Tables

variable {body : Dict} {row : Row Str Value} {updates : List (Str × Option Value)}

def applicationAccepts (name : Str) (json : Json) : Prop :=
  if name = "company_name".toList then storableJson json = true else if name = "application_time".toList then
    True else json ≠ .null

theorem application_field (parseDate parseTime : Json → Option Nat) (field : Field)
    (member : field ∈ applicationUpdate parseDate parseTime) (json : Json) (value : Option Value)
    (read : field.read json = some value) :
    AdmittedBy applicationRecords field.name value ∧ AdmittedBy applicationDetailRead field.name value ↔
      applicationAccepts field.name json := by
  have dates : ∀ json value, (parseDate json).map Value.date = some value → value.isDate = true ∧
      value.isDate = true := by
    intro json value parsed
    obtain ⟨day, _, rfl⟩ := Option.map_eq_some_iff.mp parsed
    exact ⟨rfl, rfl⟩
  have times : ∀ json value, (parseTime json).map Value.time = some value → value.isTime = true ∧
      value.isTime = true := by
    intro json value parsed
    obtain ⟨time, _, rfl⟩ := Option.map_eq_some_iff.mp parsed
    exact ⟨rfl, rfl⟩
  simp only [applicationUpdate, List.mem_cons, List.not_mem_nil, or_false] at member
  rcases member with rfl | rfl | rfl | rfl
  · have columns := and_congr (@admittedBy_single applicationRecords "company_name".toList _ rfl value)
      (@admittedBy_single applicationDetailRead "company_name".toList _ rfl value)
    exact columns.trans (string_admitted read)
  · have columns := and_congr (@admittedBy_single applicationRecords "application_date".toList _ rfl value)
      (@admittedBy_single applicationDetailRead "application_date".toList _ rfl value)
    exact columns.trans (required_admitted dates read)
  · have columns := and_congr (@admittedBy_single applicationRecords "application_time".toList _ rfl value)
      (@admittedBy_single applicationDetailRead "application_time".toList _ rfl value)
    exact columns.trans (iff_of_true (optional_admitted times read) trivial)
  · have columns := and_congr (@admittedBy_single applicationRecords "status".toList _ rfl value)
      (@admittedBy_single applicationDetailRead "status".toList _ rfl value)
    exact columns.trans (required_admitted (fun _ _ known => literal_held known) read)

theorem application_stored (parseDate parseTime : Json → Option Nat) (now : Nat)
    (fits : Fits applicationRecords row) (readable : Fits applicationDetailRead row)
    (dumped : dumpFields body (applicationUpdate parseDate parseTime) = some updates) :
    (updateMyApplication now row updates).Stored applicationRecords applicationDetailRead ↔
    FillsApplication body := by
  have keys : (updates.map Prod.fst).Sublist
      (["company_name", "application_date", "application_time", "status"].map String.toList) :=
    dumpFields_keys dumped
  have unique : (updates.map Prod.fst).Nodup := keys.nodup (by decide)
  have untouched : "updated_at".toList ∉ updates.map Prod.fst := fun member =>
    absurd (keys.subset member) (by decide)
  have stamped : AdmittedBy applicationRecords "updated_at".toList (some (.timestamp now)) :=
    (admittedBy_single rfl _).mpr rfl
  have stamped' : AdmittedBy applicationDetailRead "updated_at".toList (some (.timestamp now)) :=
    (admittedBy_single rfl _).mpr rfl
  have conditions := @forall_dumpFields body _ updates dumped
    (fun name value => AdmittedBy applicationRecords name value ∧ AdmittedBy applicationDetailRead name value)
    applicationAccepts (application_field parseDate parseTime)
  rw [updateMyApplication, storeUpdate_stored now fits readable unique untouched stamped stamped', conditions]
  simp only [applicationUpdate, List.forall_mem_cons, List.not_mem_nil, false_imp_iff, implies_true, and_true]
  have date : (∀ json, body.lookup "application_date".toList = some json →
    applicationAccepts "application_date".toList json) ↔
      body.lookup "application_date".toList ≠ some .null :=
    ⟨fun each null => each .null null rfl, fun set json given null => set (null ▸ given)⟩
  have status : (∀ json, body.lookup "status".toList = some json → applicationAccepts "status".toList json) ↔
      body.lookup "status".toList ≠ some .null :=
    ⟨fun each null => each .null null rfl, fun set json given null => set (null ▸ given)⟩
  rw [date, status]
  have time : ∀ json, body.lookup "application_time".toList = some json →
      applicationAccepts "application_time".toList json :=
    fun _ _ => trivial
  exact ⟨fun each => ⟨each.1, each.2.1, each.2.2.2⟩, fun filled => ⟨filled.1, filled.2.1, time, filled.2.2⟩⟩

theorem knowledge_field (field : Field) (member : field ∈ careerKnowledgeBaseUpdate) (json : Json)
    (value : Option Value) (read : field.read json = some value) :
    AdmittedBy careerKnowledgeBases field.name value ∧ AdmittedBy careerKnowledgeBaseRead field.name value ↔
      storableJson json = true := by
  simp only [careerKnowledgeBaseUpdate, List.mem_cons, List.not_mem_nil, or_false] at member
  rcases member with rfl | rfl
  · have columns := and_congr (@admittedBy_single careerKnowledgeBases "raw_input".toList _ rfl value)
      (@admittedBy_single careerKnowledgeBaseRead "raw_input".toList _ rfl value)
    exact columns.trans (string_admitted read)
  · have columns := and_congr (@admittedBy_single careerKnowledgeBases "content".toList _ rfl value)
      (@admittedBy_single careerKnowledgeBaseRead "content".toList _ rfl value)
    exact columns.trans (string_admitted read)

theorem raw_present (dumped : dumpFields body careerKnowledgeBaseUpdate = some updates) :
    "raw_input".toList ∈ updates.map Prod.fst ↔ (body.lookup "raw_input".toList).isSome = true := by
  constructor
  · intro member
    obtain ⟨⟨name, value⟩, inside, rfl⟩ := List.mem_map.mp member
    obtain ⟨_, _, _, json, given, _⟩ := (mem_dumpFields dumped).mp inside
    rw [given]
    rfl
  · intro given
    obtain ⟨json, known⟩ := Option.isSome_iff_exists.mp given
    obtain ⟨value, read⟩ := dumpFields_read dumped List.mem_cons_self known
    have inside : ("raw_input".toList, value) ∈ updates :=
      (mem_dumpFields dumped).mpr ⟨_, List.mem_cons_self, rfl, json, known, read⟩
    exact List.mem_map_of_mem inside

theorem rewritten_fields (dumped : dumpFields body careerKnowledgeBaseUpdate = some updates) {raw : Json}
    (known : body.lookup "raw_input".toList = some raw) (content : Str) :
    (∀ update ∈ setKey updates "content".toList (some (.text content)),
      AdmittedBy careerKnowledgeBases update.1 update.2 ∧
        AdmittedBy careerKnowledgeBaseRead update.1 update.2) ↔
        storableJson raw = true ∧ (!content.contains '\x00') = true := by
  have text : AdmittedBy careerKnowledgeBases "content".toList (some (.text content)) ∧
      AdmittedBy careerKnowledgeBaseRead "content".toList (some (.text content)) ↔
          (!content.contains '\x00') = true := by
    rw [admittedBy_single rfl, admittedBy_single rfl]
    exact ⟨fun both => both.1, fun plain => ⟨plain, rfl⟩⟩
  obtain ⟨value, read⟩ := dumpFields_read dumped List.mem_cons_self known
  have rawField := knowledge_field _ List.mem_cons_self raw value read
  have inside : ("raw_input".toList, value) ∈ updates :=
    (mem_dumpFields dumped).mpr ⟨_, List.mem_cons_self, rfl, raw, known, read⟩
  constructor
  · intro each
    have other := each _ (mem_setKey.mpr (.inr ⟨by decide, inside⟩))
    have set := each _ (mem_setKey.mpr (.inl ⟨rfl, rfl⟩))
    exact ⟨rawField.mp other, text.mp set⟩
  · rintro ⟨storable, plain⟩ ⟨name, given⟩ member
    rcases mem_setKey.mp member with ⟨rfl, rfl⟩ | ⟨other, member⟩
    · exact text.mpr plain
    · obtain ⟨field, ofSchema, rfl, json, found, read'⟩ := (mem_dumpFields dumped).mp member
      have rawOnly : field.name = "raw_input".toList := by
        simp only [careerKnowledgeBaseUpdate, List.mem_cons, List.not_mem_nil, or_false] at ofSchema
        rcases ofSchema with rfl | rfl
        · rfl
        · exact absurd rfl other
      rw [rawOnly] at found
      cases known.symm.trans found
      exact (knowledge_field field ofSchema raw given read').mpr storable

theorem knowledge_stored (now : Nat) (structured : Option Str) (fits : Fits careerKnowledgeBases row)
    (readable : Fits careerKnowledgeBaseRead row)
    (dumped : dumpFields body careerKnowledgeBaseUpdate = some updates) :
    (updateMyCareerKnowledgeBase now structured row updates).Stored careerKnowledgeBases
    careerKnowledgeBaseRead ↔
      FillsKnowledge body structured := by
  have keys : (updates.map Prod.fst).Sublist (["raw_input", "content"].map String.toList) :=
    dumpFields_keys dumped
  have unique : (updates.map Prod.fst).Nodup := keys.nodup (by decide)
  have untouched : "updated_at".toList ∉ updates.map Prod.fst := fun member =>
    absurd (keys.subset member) (by decide)
  have stamped : AdmittedBy careerKnowledgeBases "updated_at".toList (some (.timestamp now)) :=
    (admittedBy_single rfl _).mpr rfl
  have stamped' : AdmittedBy careerKnowledgeBaseRead "updated_at".toList (some (.timestamp now)) :=
    (admittedBy_single rfl _).mpr rfl
  have conditions := @forall_dumpFields body _ updates dumped
    (fun name value => AdmittedBy careerKnowledgeBases name value ∧
      AdmittedBy careerKnowledgeBaseRead name value)
    (fun _ json => storableJson json = true) knowledge_field
  have present := raw_present dumped
  unfold updateMyCareerKnowledgeBase FillsKnowledge
  split
  · rename_i given
    obtain ⟨raw, known⟩ := Option.isSome_iff_exists.mp (present.mp given)
    rw [known]
    cases structured with
    | none => exact iff_of_true trivial nofun
    | some content =>
      have unique' := setKey_keys unique "content".toList (some (Value.text content))
      have untouched' : "updated_at".toList ∉
          (setKey updates "content".toList (some (Value.text content))).map Prod.fst := by
        intro member
        obtain ⟨⟨name, value⟩, inside, rfl⟩ := List.mem_map.mp member
        rcases mem_setKey.mp inside with ⟨same, _⟩ | ⟨_, inside⟩
        · exact absurd same (by decide)
        · exact untouched (List.mem_map_of_mem inside)
      simp only
      rw [storeUpdate_stored now fits readable unique' untouched' stamped stamped',
        rewritten_fields dumped known content]
      simp
  · rename_i missing
    have absent := Option.not_isSome_iff_eq_none.mp (mt present.mpr missing)
    rw [absent, storeUpdate_stored now fits readable unique untouched stamped stamped', conditions]
    simp only [careerKnowledgeBaseUpdate, List.forall_mem_cons, absent, List.not_mem_nil, false_imp_iff,
      implies_true, and_true]
    simp

end Tables

/-- When an accepted partial update of an application, and of a knowledge base, can be stored and answered. -/
theorem partial_update_stored_iff (parseDate parseTime : Json → Option Nat) (now : Nat) :
    (∀ row body updates, Fits applicationRecords row → Fits applicationDetailRead row →
      dumpFields body (applicationUpdate parseDate parseTime) = some updates →
      ((updateMyApplication now row updates).Stored applicationRecords applicationDetailRead ↔
        FillsApplication body)) ∧
    ∀ row body updates structured, Fits careerKnowledgeBases row → Fits careerKnowledgeBaseRead row →
      dumpFields body careerKnowledgeBaseUpdate = some updates →
      ((updateMyCareerKnowledgeBase now structured row updates).Stored careerKnowledgeBases
        careerKnowledgeBaseRead ↔
        FillsKnowledge body structured) := by
  constructor
  · intro row body updates fits readable dumped
    exact application_stored parseDate parseTime now fits readable dumped
  · intro row body updates structured fits readable dumped
    exact knowledge_stored now structured fits readable dumped

def acmeApplication : Row Str Value := rowOf [
  ("id".toList, some (.integer 1)), ("user_id".toList, some (.integer 1)),
    ("company_name".toList, some (.text "Acme".toList)),
  ("application_date".toList, some (.date 1)), ("status".toList, some (.text "applied".toList)),
  ("resume_content_snapshot".toList, some (.text [])), ("template_id_snapshot".toList, some (.text [])),
  ("pdf_snapshot".toList, some (.bytes [])), ("created_at".toList, some (.timestamp 1)),
    ("updated_at".toList, some (.timestamp 1))]

set_option maxRecDepth 20000 in
theorem partial_update_stored_iff_offered :
    (updateMyApplication 2 acmeApplication [("status".toList, some (.text "offered".toList))]).Stored
    applicationRecords applicationDetailRead ↔
      FillsApplication [("status".toList, .str "offered".toList)] :=
  (partial_update_stored_iff (fun _ => none) (fun _ => none) 2).1 _ _ _ (by decide) (by decide) rfl

set_option maxRecDepth 20000 in
/-- A null company name passes validation, and the database refuses it. -/
theorem null_company_name :
    dumpFields [("company_name".toList, .null)] (applicationUpdate (fun _ => none) fun _ => none) =
      some [("company_name".toList, none)] ∧
      Fits applicationRecords acmeApplication ∧ Fits applicationDetailRead acmeApplication ∧
      updateMyApplication 2 acmeApplication [("company_name".toList, none)] = .databaseError := by
  refine ⟨rfl, by decide, by decide, ?_⟩
  rw [updateMyApplication, storeUpdate, if_neg (by decide)]

end ManifestCV.Workspace
