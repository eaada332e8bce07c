/-
  `SELECT *` over a join. A column of the result is called by its relation and its own name with an
  underscore between them, and no two columns may be called the same. Within one relation they never
  are, so the outcome rests on the pairs of a left and a right column (`ofStatement_star`). Such a
  pair is called the same only if the name of one relation goes on, after an underscore, where that
  of the other ends (`begins_of_sameName`): `a.b_c` and `a_b.c` are both called `a_b_c`.
-/
import StreamSql.Proofs.Analysis.Resolution

namespace StreamSql

open Outcome

/-! ## Glued names -/

namespace Text

/-- Names that begin alike differ in what follows. -/
theorem sameName_append_left (q a b : String) : sameName (q ++ a) (q ++ b) = sameName a b := by
  rw [Bool.eq_iff_iff, sameName_iff, sameName_iff, lower_append, lower_append,
    String.append_right_inj]

/-- The second name begins with the first, without regard to the case of letters. -/
def Begins (a b : String) : Prop :=
  (lower a).toList <+: (lower b).toList

instance (a b : String) : Decidable (Begins a b) :=
  inferInstanceAs (Decidable ((lower a).toList <+: (lower b).toList))

/-- Two names are glued to the same text only if one goes on where the other ends. -/
theorem begins_of_sameName {q q' a b : String} (hq : sameName q q' = false)
    (h : sameName (q ++ "_" ++ a) (q' ++ "_" ++ b) = true) :
    Begins (q ++ "_") q' ∨ Begins (q' ++ "_") q := by
  have hglued : ∀ s : String, (lower (s ++ "_")).toList = (lower s).toList ++ ['_'] := by
    intro s
    rw [lower_append, String.toList_append]
    rfl
  have hne : (lower q).toList ++ ['_'] ≠ (lower q').toList ++ ['_'] := by
    intro heq
    rw [← Bool.not_eq_true, sameName_iff, ← String.toList_inj] at hq
    exact hq (List.append_cancel_right heq)
  rw [sameName_iff, lower_append (q ++ "_"), lower_append (q' ++ "_"), ← String.toList_inj,
    String.toList_append, String.toList_append, hglued, hglued] at h
  unfold Begins
  rw [hglued, hglued]
  have hprefix := List.prefix_or_prefix_of_prefix ⟨_, h⟩ (List.prefix_append _ (lower b).toList)
  rw [List.prefix_concat_iff, List.prefix_concat_iff] at hprefix
  rcases hprefix with (heq | hbegins) | (heq | hbegins)
  · exact absurd heq hne
  · exact Or.inl hbegins
  · exact absurd heq.symm hne
  · exact Or.inr hbegins

end Text

namespace Analysis

variable {config : Config} {schema : Schema} {joined : Bool}

/-! ## The name that is refused -/

theorem repeatedName?_append {seen xs ys : List String} :
    repeatedName? seen (xs ++ ys) =
      (repeatedName? seen xs).or (repeatedName? ((xs.map Text.upper).reverse ++ seen) ys) := by
  induction xs generalizing seen with
  | nil => rfl
  | cons x xs ih =>
      rw [List.cons_append, repeatedName?, repeatedName?]
      split
      · rfl
      · rw [ih, List.map_cons, List.reverse_cons, List.append_assoc, List.singleton_append]

/-- Among names that are all different, one is refused only for a name before them. -/
theorem mem_of_repeatedName? {seen names : List String} {name : String}
    (h : repeatedName? seen names = some name)
    (hnames : names.Pairwise fun a b => Text.sameName a b = false) :
    name ∈ names ∧ Text.upper name ∈ seen := by
  induction names generalizing seen with
  | nil => cases h
  | cons first names ih =>
      obtain ⟨hfirst, hnames⟩ := List.pairwise_cons.mp hnames
      rw [repeatedName?] at h
      split at h
      · rename_i hseen
        cases h
        exact ⟨List.mem_cons_self, hseen⟩
      · obtain ⟨hname, hseen⟩ := ih h hnames
        rcases List.mem_cons.mp hseen with heq | hseen
        · have hdifferent := hfirst name hname
          rw [← Bool.not_eq_true, Text.sameName_iff, ← Text.upper_eq_iff] at hdifferent
          exact absurd heq.symm hdifferent
        · exact ⟨List.mem_cons_of_mem _ hname, hseen⟩

/-- Of two lists without repetition, the second has the name that is refused and the first the name
    it repeats. -/
theorem exists_of_repeatedName? {xs ys : List String} {name : String}
    (h : repeatedName? [] (xs ++ ys) = some name)
    (hxs : xs.Pairwise fun a b => Text.sameName a b = false)
    (hys : ys.Pairwise fun a b => Text.sameName a b = false) :
    name ∈ ys ∧ ∃ x ∈ xs, Text.sameName x name = true := by
  have hfirst : repeatedName? [] xs = none :=
    repeatedName?_eq_none.mpr ⟨fun _ _ => List.not_mem_nil, hxs⟩
  rw [repeatedName?_append, hfirst, Option.none_or, List.append_nil] at h
  obtain ⟨hname, hseen⟩ := mem_of_repeatedName? h hys
  obtain ⟨x, hx, heq⟩ := List.mem_map.mp (List.mem_reverse.mp hseen)
  exact ⟨hname, x, hx, Text.sameName_iff.mpr (Text.upper_eq_iff.mp heq)⟩

/-! ## All fields written out -/

/-- Where all fields are written out under different names, each of them means its own field. -/
theorem finds_expandField (hqualified : ∀ g ∈ schema.fields, g.qualifier ≠ none)
    (hnames : ((schema.fields.map (expandField joined)).map (·.2)).Pairwise
      fun a b => Text.sameName a b = false) {k : Nat} {f : Field}
    (hk : schema.fields[k]? = some f) : schema.Finds (expandField joined f).1 f k := by
  have hf := List.mem_of_getElem? hk
  obtain ⟨q, hq⟩ := Option.ne_none_iff_exists'.mp (hqualified f hf)
  have hspelled : Spelled schema (written joined f) := by
    refine spelled_expandField (p := fun _ => true) hf hq rfl hqualified (fun _ _ _ => rfl) ?_
    rwa [List.filter_true]
  obtain ⟨g, i, _, hfound, _⟩ := hspelled
  have hsame := Schema.eq_of_resolve (hfound .unknown) hk (answers_written hq)
  cases hsame
  exact ⟨none, written joined f, expandField_fst f, hfound⟩

end Analysis

/-! ## Statements -/

/-- `SELECT *` without conditions. -/
def Statement.star (source : Relation) (window : Option Window) (limit : Option Nat)
    (l : Option Location) : Statement :=
  .query { select := [.all none l], source, window, limit }

/-- The name that `*` over a join gives to a column of a relation. -/
def TableRef.starName (t : TableRef) (c : Column) : String :=
  t.qualifier ++ "_" ++ c.name

theorem TableRef.starName_distinct (t : TableRef) {columns : List Column}
    (h : columns.Pairwise fun c d => Text.sameName c.name d.name = false) :
    (columns.map t.starName).Pairwise fun a b => Text.sameName a b = false := by
  rw [List.pairwise_map]
  apply h.imp
  intro c d hcd
  unfold starName
  rw [Text.sameName_append_left, hcd]

namespace Analysis

variable {catalog : Catalog} {config : Config} {type : JoinType} {left right : TableRef}
  {lcols rcols : List Column} {on on' : Expr} {window : Option Window} {limit : Option Nat}
  {l : Option Location}

/-- The columns that two relations offer. -/
def joinInput (left right : TableRef) (lcols rcols : List Column) : Schema :=
  (Schema.ofRelation left.qualifier lcols).join (.ofRelation right.qualifier rcols)

theorem qualifier_of_joinInput {f : Field} (hf : f ∈ (joinInput left right lcols rcols).fields) :
    f.qualifier ≠ none := by
  rcases List.mem_append.mp hf with hf | hf
  · obtain ⟨c, _, rfl⟩ := List.mem_map.mp hf
    exact Option.some_ne_none _
  · obtain ⟨d, _, rfl⟩ := List.mem_map.mp hf
    exact Option.some_ne_none _

theorem exprs_joinInput :
    ((joinInput left right lcols rcols).fields.map (expandField true)).map (·.1) =
      lcols.map (fun c => Expr.qualifiedCol left.qualifier c.name) ++
        rcols.map (fun d => Expr.qualifiedCol right.qualifier d.name) := by
  simp only [joinInput, Schema.join, Schema.ofRelation, List.map_append, List.map_map]
  rfl

theorem names_joinInput :
    ((joinInput left right lcols rcols).fields.map (expandField true)).map (·.2) =
      lcols.map left.starName ++ rcols.map right.starName := by
  simp only [joinInput, Schema.join, Schema.ofRelation, List.map_append, List.map_map]
  rfl

/-- All that the outcome of `SELECT *` over a join rests on is the list of names. -/
theorem ofStatement_star_eq (hl : catalog.lookup left.name = some lcols)
    (hr : catalog.lookup right.name = some rcols)
    (hq : Text.sameName left.qualifier right.qualifier = false)
    (hon : resolve config.maxDepth (joinInput left right lcols rcols) on = .ok on') :
    ofStatement catalog config (.star (.join type left right on) window limit l) =
      match repeatedName? [] (lcols.map left.starName ++ rcols.map right.starName) with
      | some name => .error (.planning (.repeatedName name))
      | none => .ok {
          sources := [⟨left.name, left.aliasName, lcols⟩, ⟨right.name, right.aliasName, rcols⟩]
          input := joinInput left right lcols rcols
          exprs := ((joinInput left right lcols rcols).fields.map (expandField true)).map (·.1)
          names := lcols.map left.starName ++ rcols.map right.starName
          window, limit, join := some ⟨type, on'⟩ } := by
  have hrelation : relation catalog config (.join type left right on) =
      .ok ([⟨left.name, left.aliasName, lcols⟩, ⟨right.name, right.aliasName, rcols⟩],
        joinInput left right lcols rcols, some ⟨type, on'⟩) := by
    rw [relation_join_eq_ok]
    exact ⟨_, _, on', source_eq_ok.mpr ⟨_, hl, rfl⟩, source_eq_ok.mpr ⟨_, hr, rfl⟩, hq, hon, rfl,
      rfl, rfl⟩
  unfold ofStatement Statement.star
  simp only [Statement.body, hrelation]
  show (selectList _ _ _ _ >>= _) = _
  rw [Option.isSome_some, selectList_star, names_joinInput]
  cases repeatedName? [] (lcols.map left.starName ++ rcols.map right.starName) <;> rfl

/-- No name is refused exactly if no left and right column have the same. -/
theorem distinct_starNames_iff
    (hlcols : lcols.Pairwise fun c d => Text.sameName c.name d.name = false)
    (hrcols : rcols.Pairwise fun c d => Text.sameName c.name d.name = false) :
    repeatedName? [] (lcols.map left.starName ++ rcols.map right.starName) = none ↔
      ∀ c ∈ lcols, ∀ d ∈ rcols, Text.sameName (left.starName c) (right.starName d) = false := by
  rw [repeatedName?_eq_none, List.pairwise_append]
  simp [left.starName_distinct hlcols, right.starName_distinct hrcols]

/-- **`SELECT *` over a join.** It is refused exactly if a left and a right column get one name, and
    then for the name of such a right column. Otherwise it gives the left fields and then the right
    ones, each as a column that means the field at its own place of the input. If neither name of a
    relation begins with the other and an underscore, it is never refused. -/
theorem ofStatement_star (hl : catalog.lookup left.name = some lcols)
    (hr : catalog.lookup right.name = some rcols)
    (hlcols : lcols.Pairwise fun c d => Text.sameName c.name d.name = false)
    (hrcols : rcols.Pairwise fun c d => Text.sameName c.name d.name = false)
    (hq : Text.sameName left.qualifier right.qualifier = false)
    (hon : resolve config.maxDepth (joinInput left right lcols rcols) on = .ok on') :
    ((∃ s, ofStatement catalog config (.star (.join type left right on) window limit l) = .ok s) ↔
      ∀ c ∈ lcols, ∀ d ∈ rcols, Text.sameName (left.starName c) (right.starName d) = false) ∧
    (∀ s, ofStatement catalog config (.star (.join type left right on) window limit l) = .ok s →
      s.input = joinInput left right lcols rcols ∧
      s.exprs = lcols.map (fun c => Expr.qualifiedCol left.qualifier c.name) ++
        rcols.map (fun d => Expr.qualifiedCol right.qualifier d.name) ∧
      s.names = lcols.map left.starName ++ rcols.map right.starName ∧
      ∀ k e, s.exprs[k]? = some e → ∃ f, s.input.Finds e f k) ∧
    (∀ err, ofStatement catalog config (.star (.join type left right on) window limit l) =
        .error err →
      ∃ c ∈ lcols, ∃ d ∈ rcols, Text.sameName (left.starName c) (right.starName d) = true ∧
        err = .planning (.repeatedName (right.starName d))) ∧
    (¬Text.Begins (left.qualifier ++ "_") right.qualifier →
      ¬Text.Begins (right.qualifier ++ "_") left.qualifier →
      ∃ s, ofStatement catalog config (.star (.join type left right on) window limit l) = .ok s) := by
  have hsucceeds : (∃ s, ofStatement catalog config
      (.star (.join type left right on) window limit l) = .ok s) ↔
      ∀ c ∈ lcols, ∀ d ∈ rcols, Text.sameName (left.starName c) (right.starName d) = false := by
    rw [← distinct_starNames_iff hlcols hrcols, ofStatement_star_eq hl hr hq hon]
    cases repeatedName? [] (lcols.map left.starName ++ rcols.map right.starName) <;> simp
  refine ⟨hsucceeds, fun s hs => ?_, fun err herr => ?_, fun hnot hnot' => ?_⟩
  · rw [ofStatement_star_eq hl hr hq hon] at hs
    split at hs
    · cases hs
    · rename_i hnone
      cases hs
      refine ⟨rfl, exprs_joinInput, rfl, fun k e hk => ?_⟩
      have hnames := (repeatedName?_eq_none.mp hnone).2
      rw [← names_joinInput] at hnames
      simp only [List.map_map, List.getElem?_map, Option.map_eq_some_iff] at hk
      obtain ⟨f, hf, rfl⟩ := hk
      exact ⟨f, finds_expandField (fun _ => qualifier_of_joinInput) hnames hf⟩
  · rw [ofStatement_star_eq hl hr hq hon] at herr
    split at herr
    · rename_i name hname
      cases herr
      obtain ⟨hmem, x, hx, hsame⟩ := exists_of_repeatedName? hname
        (left.starName_distinct hlcols) (right.starName_distinct hrcols)
      obtain ⟨c, hc, rfl⟩ := List.mem_map.mp hx
      obtain ⟨d, hd, rfl⟩ := List.mem_map.mp hmem
      exact ⟨c, hc, d, hd, hsame, rfl⟩
    · cases herr
  · rw [hsucceeds]
    intro c _ d _
    rw [← Bool.not_eq_true]
    intro hsame
    rcases Text.begins_of_sameName hq hsame with h | h
    · exact hnot h
    · exact hnot' h

def item : TableRef := ⟨"item", none, none⟩

def itemColumns : List Column := [⟨"id", .int32, true⟩, ⟨"size_cm", .int32, true⟩]

/-- The sizes that items come in, perhaps under another name. -/
def itemSize (aliasName : Option String) : TableRef := ⟨"item_size", aliasName, none⟩

def itemSizeColumns : List Column := [⟨"cm", .int32, true⟩]

def items : Catalog :=
  ⟨[("item", itemColumns), ("item_size", itemSizeColumns)]⟩

/-- `item.size_cm = cm` -/
def sizeMatches : Expr :=
  .compare none (.qualifiedCol "item" "size_cm") .eq (.col "cm")

/-- `SELECT * FROM item JOIN item_size s ON item.size_cm = cm` -/
theorem ofStatement_star_items :
    Text.sameName item.qualifier (itemSize (some "s")).qualifier = false ∧
      resolve 128 (joinInput item (itemSize (some "s")) itemColumns itemSizeColumns) sizeMatches =
        .ok sizeMatches ∧
      ∃ s, ofStatement items {}
          (.star (.join .inner item (itemSize (some "s")) sizeMatches) none none none) = .ok s ∧
        s.exprs = [.qualifiedCol "item" "id", .qualifiedCol "item" "size_cm", .qualifiedCol "s" "cm"] ∧
        s.names = ["item_id", "item_size_cm", "s_cm"] ∧
        ∀ k e, s.exprs[k]? = some e → ∃ f, s.input.Finds e f k := by
  have hq : Text.sameName item.qualifier (itemSize (some "s")).qualifier = false := by decide
  have hon : resolve 128 (joinInput item (itemSize (some "s")) itemColumns itemSizeColumns)
      sizeMatches = .ok sizeMatches := rfl
  have hl : items.lookup item.name = some itemColumns := rfl
  have hr : items.lookup (itemSize (some "s")).name = some itemSizeColumns := rfl
  have hall := @ofStatement_star items {} .inner _ _ _ _ _ _ none none none hl hr (by decide)
    (by decide) hq hon
  obtain ⟨s, hs⟩ := hall.2.2.2 (by decide) (by decide)
  obtain ⟨_, hexprs, hnames, hfinds⟩ := hall.2.1 s hs
  exact ⟨hq, hon, s, hs, hexprs, hnames, hfinds⟩

/-- Without another name for the sizes, `size_cm` of an item and `cm` of a size are both called
    `item_size_cm`. -/
theorem exists_star_refused :
    ∃ (left right : TableRef) (lcols rcols : List Column) (on : Expr),
      items.lookup left.name = some lcols ∧ items.lookup right.name = some rcols ∧
      (lcols.Pairwise fun c d => Text.sameName c.name d.name = false) ∧
      (rcols.Pairwise fun c d => Text.sameName c.name d.name = false) ∧
      Text.sameName left.qualifier right.qualifier = false ∧
      (∃ on', resolve 128 (joinInput left right lcols rcols) on = .ok on') ∧
      ofStatement items {} (.star (.join .inner left right on) none none none) =
        .error (.planning (.repeatedName "item_size_cm")) :=
  ⟨item, itemSize none, itemColumns, itemSizeColumns, sizeMatches, rfl, rfl, by decide, by decide,
    by decide, ⟨sizeMatches, rfl⟩, rfl⟩

end Analysis

end StreamSql
