/-
  A catalog over a run of calls. Each call registers a relation, as it is given or as a document
  describes it; a document with a column of an unknown type fails and changes nothing. After a run
  the relation of a name is that of the last call that succeeded with the name, in any case of its
  letters (`lookup_run`), and the names of the relations are listed once each, in order
  (`names_strict`). A registration answers whether an earlier call of the run wrote its name
  (`answers_register`). The catalog of a text is that of the run of its definitions (`parse_eq_ok`).
-/
import Mathlib.Data.List.Induction
import StreamSql.Catalog
import StreamSql.Proofs.Json.Text
import StreamSql.Proofs.Outcome

namespace StreamSql

open Outcome

/-! ## Definitions -/

namespace RelationDef

variable {d : RelationDef} {columns : List Column}

/-- Every column has a type that is known. -/
def Supported (d : RelationDef) : Prop :=
  ∀ c ∈ d.columns, DataType.ofSqlName? c.2 ≠ none

/-- The columns have the names and the types of the definition, in its order, and may be null. -/
def Describes (d : RelationDef) (columns : List Column) : Prop :=
  List.Forall₂ (fun c column => DataType.ofSqlName? c.2 = some column.type ∧ column.name = c.1 ∧
    column.nullable = true) d.columns columns

theorem toColumns_eq_ok : d.toColumns = .ok columns ↔ d.Describes columns := by
  rw [toColumns, mapM_eq_ok, Describes]
  refine forall₂_iff fun (name, type) _ column => ?_
  cases h : DataType.ofSqlName? type with
  | none => simp [h]
  | some t =>
      obtain ⟨_, _, _⟩ := column
      simp only [h, Except.ok.injEq, Column.mk.injEq, Option.some.injEq]
      constructor
      · rintro ⟨rfl, rfl, rfl⟩
        exact ⟨rfl, rfl, rfl⟩
      · rintro ⟨rfl, rfl, rfl⟩
        exact ⟨rfl, rfl, rfl⟩

theorem Describes.unique {columns' : List Column} (h : d.Describes columns)
    (h' : d.Describes columns') : columns = columns' :=
  Except.ok.inj ((toColumns_eq_ok.mpr h).symm.trans (toColumns_eq_ok.mpr h'))

theorem supported_iff : d.Supported ↔ ∃ columns, d.Describes columns := by
  constructor
  · intro h
    refine exists_forall₂ fun c hc => ?_
    obtain ⟨t, ht⟩ := Option.ne_none_iff_exists'.mp (h c hc)
    exact ⟨⟨c.1, t, true⟩, ht, rfl, rfl⟩
  · rintro ⟨columns, h⟩ c hc
    obtain ⟨column, _, ht, _⟩ := exists_right h hc
    simp [ht]

end RelationDef

namespace Catalog

variable {c c' : Catalog} {name other : String} {columns : List Column} {d : RelationDef}

theorem define_eq_ok :
    c.define d = .ok c' ↔ ∃ columns, d.Describes columns ∧ c' = c.withRelation d.name columns := by
  rw [define, bind_eq_ok]
  simp only [RelationDef.toColumns_eq_ok, pure_eq_ok]
  exact exists_congr fun _ => and_congr_right' eq_comm

/-- A definition is taken when all its types are known, whatever the catalog holds. -/
theorem exists_define_iff : (∃ c', c.define d = .ok c') ↔ d.Supported := by
  simp only [define_eq_ok, RelationDef.supported_iff]
  exact ⟨fun ⟨_, columns, h, _⟩ => ⟨columns, h⟩, fun ⟨columns, h⟩ => ⟨_, columns, h, rfl⟩⟩

/-! ## Registered relations -/

theorem lookup_filter_ne {entries : List (String × List Column)} {key other : String}
    (h : other ≠ key) :
    (entries.filter fun e => e.1 != key).lookup other = entries.lookup other := by
  induction entries with
  | nil => rfl
  | cons e entries ih =>
      obtain ⟨k, columns⟩ := e
      by_cases hk : k = key
      · have hne : (other == k) = false := by simpa [hk] using h
        simp [hk, ih, List.lookup_cons, hk ▸ hne]
      · simp [hk, ih, List.lookup_cons]

/-- A relation that was registered is found by its name in any case of the letters, and the others
    stay. -/
theorem lookup_withRelation {c : Catalog} {name other : String} {columns : List Column} :
    (c.withRelation name columns).lookup other =
      if Text.sameName name other then some columns else c.lookup other := by
  simp only [lookup, withRelation, register, List.lookup_cons, Text.sameName]
  by_cases h : Text.lower other = Text.lower name
  · simp [h]
  · have hne : (Text.lower name == Text.lower other) = false := by simpa using Ne.symm h
    have hne' : (Text.lower other == Text.lower name) = false := by simpa using h
    simp [hne, hne', lookup_filter_ne h]

/-- The names under which relations are kept. -/
def keys (c : Catalog) : List String :=
  c.entries.map (·.1)

theorem keys_withRelation :
    (c.withRelation name columns).keys = Text.lower name :: c.keys.filter (· != Text.lower name) := by
  simp only [keys, withRelation, register, List.map_cons, List.filter_map]
  rfl

theorem mem_keys_withRelation :
    other ∈ (c.withRelation name columns).keys ↔ other = Text.lower name ∨ other ∈ c.keys := by
  rw [keys_withRelation, List.mem_cons, List.mem_filter]
  by_cases h : other = Text.lower name <;> simp [h]

theorem nodup_keys_withRelation (h : c.keys.Nodup) : (c.withRelation name columns).keys.Nodup := by
  rw [keys_withRelation]
  exact List.nodup_cons.mpr ⟨by simp, h.filter _⟩

theorem mem_names : name ∈ c.names ↔ name ∈ c.keys :=
  List.mem_mergeSort

/-- Names that are kept once each are listed in their strict order. -/
theorem names_strict (h : c.keys.Nodup) : c.names.Pairwise (· < ·) := by
  have hsorted : c.names.Pairwise fun a b => decide (a ≤ b) = true := by
    refine List.pairwise_mergeSort (fun a b c hab hbc => ?_) (fun a b => ?_) _
    · exact decide_eq_true (String.le_trans (of_decide_eq_true hab) (of_decide_eq_true hbc))
    · simpa using String.le_total a b
  have hnodup : c.names.Nodup := (List.mergeSort_perm _ _).nodup_iff.mpr h
  refine (hsorted.and hnodup).imp fun {a b} hab => ?_
  refine String.not_le.mp fun hle => hab.2 ?_
  exact String.le_antisymm (of_decide_eq_true hab.1) hle

/-! ## Runs -/

/-- A call that may change a catalog. -/
inductive Call where
  | register (name : String) (columns : List Column)
  | define (d : RelationDef)
  deriving DecidableEq

/-- The call succeeds, and gives the relation of the name these columns. -/
inductive Call.Adds : Call → String → List Column → Prop
  | register (name : String) (columns : List Column) :
      Adds (.register name columns) name columns
  | define {d : RelationDef} {columns : List Column} (h : d.Describes columns) :
      Adds (.define d) d.name columns

/-- The call succeeds with a name that is this one but for the case of letters. -/
def Call.Writes (call : Call) (name : String) : Prop :=
  ∃ written columns, call.Adds written columns ∧ Text.sameName written name = true

/-- The catalog after a call, and what a registration answers. A call that fails leaves the catalog
    as it was. -/
def answer (c : Catalog) : Call → Catalog × Option Bool
  | .register name columns =>
    let (c', replaced) := c.register name columns
    (c', some replaced)
  | .define d =>
    match c.define d with
    | .ok c' => (c', none)
    | .error _ => (c, none)

/-- The catalog after a call. -/
def step (c : Catalog) (call : Call) : Catalog :=
  (c.answer call).1

/-- The catalog after a run of calls, which starts without relations. -/
def run (calls : List Call) : Catalog :=
  calls.foldl step empty

/-- What the calls of a run answer, from this catalog on. -/
def answersFrom (c : Catalog) : List Call → List (Option Bool)
  | [] => []
  | call :: calls => (c.answer call).2 :: answersFrom (c.step call) calls

/-- What the calls of a run answer. -/
def answers (calls : List Call) : List (Option Bool) :=
  answersFrom empty calls

theorem Call.Adds.unique {call : Call} (h : call.Adds name columns) {name' : String}
    {columns' : List Column} (h' : call.Adds name' columns') :
    name = name' ∧ columns = columns' := by
  cases h with
  | register => cases h' with
    | register => exact ⟨rfl, rfl⟩
  | define h => cases h' with
    | define h' => exact ⟨rfl, h.unique h'⟩

/-- What a call does: it registers a relation, or it fails and nothing changes. -/
theorem step_cases (c : Catalog) (call : Call) :
    (∃ name columns, call.Adds name columns ∧ c.step call = c.withRelation name columns) ∨
      (∀ name columns, ¬ call.Adds name columns) ∧ c.step call = c := by
  cases call with
  | register name columns => exact .inl ⟨name, columns, .register name columns, rfl⟩
  | define d =>
      cases h : c.define d with
      | ok c' =>
          obtain ⟨columns, hd, rfl⟩ := define_eq_ok.mp h
          exact .inl ⟨d.name, columns, .define hd, by simp [step, answer, h]⟩
      | error e =>
          refine .inr ⟨?_, by simp [step, answer, h]⟩
          intro _ columns hadds
          cases hadds with
          | define hd =>
              have hok : c.define d = .ok _ := define_eq_ok.mpr ⟨columns, hd, rfl⟩
              cases h.symm.trans hok

theorem run_concat (calls : List Call) (call : Call) :
    run (calls ++ [call]) = (run calls).step call := by
  simp [run]

/-- The call that gave the relation of the name these columns is the last one that wrote it. -/
def LastWrite (calls : List Call) (name : String) (columns : List Column) : Prop :=
  ∃ before call after written, calls = before ++ call :: after ∧ call.Adds written columns ∧
    Text.sameName written name = true ∧ ∀ later ∈ after, ¬ later.Writes name

theorem lastWrite_concat {calls : List Call} {call : Call} :
    LastWrite (calls ++ [call]) name columns ↔
      (∃ written, call.Adds written columns ∧ Text.sameName written name = true) ∨
        ¬ call.Writes name ∧ LastWrite calls name columns := by
  constructor
  · rintro ⟨before, writer, after, written, hcalls, hadds, hname, hafter⟩
    obtain rfl | ⟨after, last, rfl⟩ := List.eq_nil_or_concat after
    · obtain ⟨rfl, hcall⟩ := List.append_inj' hcalls rfl
      cases hcall
      exact .inl ⟨written, hadds, hname⟩
    · rw [List.concat_eq_append, ← List.cons_append, ← List.append_assoc] at hcalls
      obtain ⟨rfl, hcall⟩ := List.append_inj' hcalls rfl
      cases hcall
      refine .inr ⟨hafter call (by simp), before, writer, after, written, rfl, hadds, hname, ?_⟩
      exact fun later hlater => hafter later (by simp [hlater])
  · rintro (⟨written, hadds, hname⟩ | ⟨hcall, hlast⟩)
    · exact ⟨calls, call, [], written, rfl, hadds, hname, by simp⟩
    · obtain ⟨before, writer, after, written, rfl, hadds, hname, hafter⟩ := hlast
      refine ⟨before, writer, after ++ [call], written, by simp, hadds, hname, ?_⟩
      intro later hlater
      rcases List.mem_append.mp hlater with hlater | hlater
      · exact hafter later hlater
      · exact List.mem_singleton.mp hlater ▸ hcall

/-- One call, seen from a name: the call writes it, or the relation of the name stays. -/
theorem lookup_step (c : Catalog) (call : Call) :
    (c.step call).lookup name = some columns ↔
      (∃ written, call.Adds written columns ∧ Text.sameName written name = true) ∨
        ¬ call.Writes name ∧ c.lookup name = some columns := by
  obtain ⟨written, added, hadds, hstep⟩ | ⟨hadds, hstep⟩ := step_cases c call
  · rw [hstep, lookup_withRelation]
    by_cases hname : Text.sameName written name = true
    · have hwrites : call.Writes name := ⟨written, added, hadds, hname⟩
      simp only [hname, if_true, Option.some.injEq, hwrites, not_true_eq_false, false_and, or_false]
      constructor
      · rintro rfl
        exact ⟨written, hadds, hname⟩
      · rintro ⟨written', hadds', _⟩
        exact (hadds.unique hadds').2
    · have hwrites : ∀ written' columns', call.Adds written' columns' →
          ¬ Text.sameName written' name = true := fun written' columns' h =>
        (hadds.unique h).1 ▸ hname
      simp only [hname, if_false, Bool.false_eq_true]
      constructor
      · exact fun h => .inr ⟨fun ⟨_, _, h, hsame⟩ => hwrites _ _ h hsame, h⟩
      · rintro (⟨_, h, hsame⟩ | ⟨_, h⟩)
        · exact absurd hsame (hwrites _ _ h)
        · exact h
  · simp [hstep, hadds, Call.Writes]

/-- After a run the relation of a name is the one that the last write gave it. -/
theorem lookup_run (calls : List Call) :
    (run calls).lookup name = some columns ↔ LastWrite calls name columns := by
  induction calls using List.reverseRecOn with
  | nil => simp [run, empty, lookup, LastWrite]
  | append_singleton calls call ih => rw [run_concat, lookup_step, lastWrite_concat, ih]

theorem exists_lastWrite_iff (calls : List Call) :
    (∃ columns, LastWrite calls name columns) ↔ ∃ call ∈ calls, call.Writes name := by
  induction calls using List.reverseRecOn with
  | nil => simp [LastWrite]
  | append_singleton calls call ih =>
      simp only [lastWrite_concat, List.mem_append, List.mem_singleton, exists_or, or_and_right,
        exists_and_left, ih, exists_eq_left]
      rw [exists_comm, ← Call.Writes]
      by_cases h : call.Writes name <;> simp [h]

/-- After a run the catalog has a relation of each name that was written, and no others. -/
theorem isSome_lookup_run (calls : List Call) :
    ((run calls).lookup name).isSome = true ↔ ∃ call ∈ calls, call.Writes name := by
  rw [Option.isSome_iff_exists, ← exists_lastWrite_iff]
  simp only [lookup_run]

/-- A call answers to the catalog that the calls before it left. -/
theorem answersFrom_getElem? (c : Catalog) (calls : List Call) (i : Nat) :
    (c.answersFrom calls)[i]? =
      calls[i]?.map fun call => (((calls.take i).foldl step c).answer call).2 := by
  induction calls generalizing c i with
  | nil => rfl
  | cons call calls ih =>
      cases i with
      | zero => rfl
      | succ i => exact ih (c.step call) i

/-- A registration answers whether a call before it wrote its name. -/
theorem answers_register {calls : List Call} {i : Nat}
    (h : calls[i]? = some (.register name columns)) :
    ∃ replaced, (answers calls)[i]? = some (some replaced) ∧
      (replaced = true ↔ ∃ call ∈ calls.take i, call.Writes name) := by
  refine ⟨((run (calls.take i)).lookup name).isSome, ?_, isSome_lookup_run _⟩
  rw [answers, answersFrom_getElem?, h]
  rfl

theorem mem_keys_step (c : Catalog) (call : Call) :
    other ∈ (c.step call).keys ↔
      (∃ written columns, call.Adds written columns ∧ other = Text.lower written) ∨
        other ∈ c.keys := by
  obtain ⟨written, added, hadds, hstep⟩ | ⟨hadds, hstep⟩ := step_cases c call
  · rw [hstep, mem_keys_withRelation]
    refine or_congr_left ⟨fun h => ⟨written, added, hadds, h⟩, ?_⟩
    rintro ⟨_, _, hadds', h⟩
    exact (hadds.unique hadds').1 ▸ h
  · simp [hstep, hadds]

/-- After a run the relations are kept under the names that were written, in small letters. -/
theorem mem_keys_run (calls : List Call) :
    other ∈ (run calls).keys ↔
      ∃ call ∈ calls, ∃ written columns, call.Adds written columns ∧
        other = Text.lower written := by
  induction calls using List.reverseRecOn with
  | nil => simp [run, empty, keys]
  | append_singleton calls call ih =>
      simp only [run_concat, mem_keys_step, ih, List.mem_append, List.mem_singleton, or_and_right,
        exists_or, exists_eq_left]
      exact or_comm

theorem nodup_keys_run (calls : List Call) : (run calls).keys.Nodup := by
  induction calls using List.reverseRecOn with
  | nil => simp [run, empty, keys]
  | append_singleton calls call ih =>
      rw [run_concat]
      obtain ⟨_, _, _, hstep⟩ | ⟨_, hstep⟩ := step_cases (run calls) call
      · exact hstep ▸ nodup_keys_withRelation ih
      · rwa [hstep]

end Catalog

/-! ## Documents -/

namespace RelationDef

/-- A column as a document describes it. -/
def columnJson (c : String × String) : Json :=
  .object [("name", .string c.1), ("type", .string c.2)]

/-- A definition as a document. -/
def toJson (d : RelationDef) : Json :=
  .object [("name", .string d.name), ("columns", .ofList columnJson d.columns)]

theorem column?_columnJson (c : String × String) : column? (columnJson c) = some c := by
  simp [columnJson, column?, Json.record?, Json.valuesOf, Json.string?]

theorem ofJson?_definition (d : RelationDef) : ofJson? d.toJson = some d := by
  have hcolumns := Json.list?_ofList column?_columnJson d.columns
  simp [toJson, ofJson?, Json.record?, Json.valuesOf, Json.string?, hcolumns]

theorem wordy_columnJson (c : String × String) : Json.Wordy (columnJson c) := by
  refine .object ?_
  simp only [List.forall_mem_cons]
  exact ⟨.string _, .string _, by simp⟩

theorem wordy_toJson (d : RelationDef) : Json.Wordy d.toJson := by
  refine .object ?_
  simp only [List.forall_mem_cons]
  exact ⟨.string _, Json.wordy_ofList wordy_columnJson _, by simp⟩

end RelationDef

namespace Catalog

variable {c c' : Catalog}

/-- The definitions that a text holds. -/
def definitions? (text : String) : Option (List RelationDef) :=
  (Json.parse? text).bind fun j => j.list? RelationDef.ofJson?

/-- Definitions written as a text. -/
def document (ds : List RelationDef) : String :=
  (Json.ofList RelationDef.toJson ds).text

theorem definitions?_document (ds : List RelationDef) : definitions? (document ds) = some ds := by
  rw [definitions?, document, Json.parse?_text (Json.wordy_ofList RelationDef.wordy_toJson ds)]
  exact Json.list?_ofList RelationDef.ofJson?_definition ds

/-- Definitions that are taken one after the other, from any catalog. -/
theorem foldlM_define_eq_ok {ds : List RelationDef} :
    ds.foldlM define c = .ok c' ↔
      (∀ d ∈ ds, d.Supported) ∧ c' = (ds.map Call.define).foldl step c := by
  induction ds generalizing c with
  | nil => simpa using eq_comm
  | cons d ds ih =>
      simp only [List.foldlM_cons, bind_eq_ok, ih, List.forall_mem_cons, List.map_cons,
        List.foldl_cons]
      constructor
      · rintro ⟨next, hnext, hds, rfl⟩
        exact ⟨⟨exists_define_iff.mp ⟨next, hnext⟩, hds⟩, by simp [step, answer, hnext]⟩
      · rintro ⟨⟨hd, hds⟩, rfl⟩
        obtain ⟨next, hnext⟩ := exists_define_iff.mpr hd
        exact ⟨next, hnext, hds, by simp [step, answer, hnext]⟩

/-- The catalog of a text is what a run of its definitions gives, when their types are known. -/
theorem parse_eq_ok {text : String} :
    parse text = .ok c ↔ ∃ ds, definitions? text = some ds ∧ (∀ d ∈ ds, d.Supported) ∧
      c = run (ds.map .define) := by
  unfold parse definitions?
  cases Json.parse? text with
  | none => simp
  | some j =>
      simp only [ofJson, Option.bind_some]
      cases j.list? RelationDef.ofJson? with
      | none => simp
      | some ds => simp [foldlM_define_eq_ok, run]

/-- A definition with a type that is not known fails after any run, and changes nothing. -/
theorem run_define_of_unsupported {d : RelationDef} (h : ¬ d.Supported) (calls : List Call) :
    (∃ e, (run calls).define d = .error e) ∧ run (calls ++ [.define d]) = run calls := by
  rw [run_concat]
  cases hdefine : (run calls).define d with
  | ok c => exact absurd (exists_define_iff.mp ⟨c, hdefine⟩) h
  | error e => exact ⟨⟨e, rfl⟩, by simp [step, answer, hdefine]⟩

/-- After any run of calls a catalog is a map from names in which the case of letters does not
    count. The relation of a name is the one that the last successful call gave it, and there is none
    without such a call. A registration answers that it took the place of another relation exactly if
    an earlier call of the run succeeded with its name. A definition with an unknown type anywhere in
    it fails and leaves every relation and the list of the names as they were. The names are listed
    in strict order, and are those that were registered, in small letters. A text gives a catalog
    exactly if it holds definitions whose types are all known, and then the catalog of the run that
    defines them in order; and every list of definitions is what some text holds. -/
theorem run_last_write_wins (calls : List Call) :
    (∀ name columns, (run calls).lookup name = some columns ↔ LastWrite calls name columns) ∧
    (∀ name, (run calls).lookup name = none ↔ ∀ call ∈ calls, ¬ call.Writes name) ∧
    (∀ (i : Nat) name columns, calls[i]? = some (.register name columns) →
      ∃ replaced, (answers calls)[i]? = some (some replaced) ∧
        (replaced = true ↔ ∃ call ∈ calls.take i, call.Writes name)) ∧
    (∀ d : RelationDef, ¬ d.Supported →
      (∃ e, (run calls).define d = .error e) ∧
      (∀ name, (run (calls ++ [.define d])).lookup name = (run calls).lookup name) ∧
      (run (calls ++ [.define d])).names = (run calls).names) ∧
    (run calls).names.Pairwise (· < ·) ∧
    (∀ name, name ∈ (run calls).names ↔
      ∃ call ∈ calls, ∃ written columns, call.Adds written columns ∧ name = Text.lower written) ∧
    (∀ text c, parse text = .ok c ↔
      ∃ ds, definitions? text = some ds ∧ (∀ d ∈ ds, d.Supported) ∧ c = run (ds.map .define)) ∧
    ∀ ds, definitions? (document ds) = some ds := by
  refine ⟨fun _ _ => lookup_run calls, fun name => ?_, fun _ _ _ => answers_register,
    fun d hd => ?_, names_strict (nodup_keys_run calls),
    fun _ => mem_names.trans (mem_keys_run calls), fun _ _ => parse_eq_ok, definitions?_document⟩
  · rw [← Option.isNone_iff_eq_none, ← Option.not_isSome, Bool.not_eq_true', ← Bool.not_eq_true,
      isSome_lookup_run]
    simp
  · obtain ⟨herror, hsame⟩ := run_define_of_unsupported hd calls
    exact ⟨herror, by simp [hsame], by rw [hsame]⟩

/-- A relation of orders, defined in one spelling of its name and registered again in another. -/
def orders : List Call :=
  [.define ⟨"ORDERS", [("id", "bigint"), ("note", "varchar(20)")]⟩,
    .register "Orders" [⟨"id", .int32, false⟩]]

/-- A third definition of the orders, whose second column has no known type. -/
def places : RelationDef :=
  ⟨"orders", [("id", "INT"), ("place", "POINT")]⟩

theorem run_last_write_wins_orders :
    ¬ places.Supported ∧
      (run (orders ++ [.define places])).lookup "oRdErS" = some [⟨"id", .int32, false⟩] ∧
      (answers orders)[1]? = some (some true) ∧
      (run (orders ++ [.define places])).names = (run orders).names ∧
      ∀ c, parse (document [places]) ≠ .ok c := by
  have hplaces : ¬ places.Supported := by
    intro h
    exact h ("place", "POINT") (by decide) (by decide)
  have hdefined : (Call.define ⟨"ORDERS", [("id", "bigint"), ("note", "varchar(20)")]⟩).Writes
      "Orders" := by
    refine ⟨"ORDERS", [⟨"id", .int64, true⟩, ⟨"note", .utf8, true⟩], .define ?_, by decide⟩
    exact .cons ⟨by decide, rfl, rfl⟩ (.cons ⟨by decide, rfl, rfl⟩ .nil)
  obtain ⟨hlookup, _, hanswers, hkept, _, _, hparse, hdocument⟩ := run_last_write_wins orders
  obtain ⟨_, hsame, hnames⟩ := hkept places hplaces
  refine ⟨hplaces, ?_, ?_, hnames, fun c hc => ?_⟩
  · rw [hsame, hlookup]
    exact ⟨orders.take 1, _, [], "Orders", rfl, .register _ _, by decide, by simp⟩
  · obtain ⟨replaced, hreplaced, hiff⟩ := hanswers 1 "Orders" _ rfl
    rw [hreplaced, hiff.mpr ⟨_, List.mem_singleton.mpr rfl, hdefined⟩]
  · obtain ⟨ds, hds, hall, _⟩ := (hparse _ c).mp hc
    rw [hdocument, Option.some.injEq] at hds
    exact hplaces (hall places (by simp [← hds]))

end Catalog

end StreamSql
