/-
  A walk over the parts of a node is a walk over the list of them. `withParts` puts other parts into
  a node; whatever effects `f` has, the node is rebuilt by running `f` on the parts in their order
  and putting the results into the node (`mapChildren_eq_withParts`). So a walk stops at the first
  part that fails, and `f` is not asked about the parts after it (`runLog_mapChildren`).
-/
import StreamSql.Proofs.Expr.Parts

namespace StreamSql.Expr

open Outcome

/-! ## Parts put into a node -/

/-- The conditions and results of branches, in the order they are written. -/
def pairs : List Expr → List (Expr × Expr)
  | w :: t :: es => (w, t) :: pairs es
  | _ => []

theorem pairs_branches (bs : List (Expr × Expr)) : pairs (bs.flatMap fun b => [b.1, b.2]) = bs := by
  induction bs with
  | nil => rfl
  | cons b bs ih => simp [pairs, ih]

/-- A `CASE` over the given parts: the first one is its operand and the last one its other result,
    if it has them. -/
def caseOf (l : Option Location) (operand otherwise : Bool) (parts : List Expr) : Expr :=
  let inner := if operand then parts.tail else parts
  case l (if operand then parts.head? else none)
    (pairs (if otherwise then inner.dropLast else inner))
    (if otherwise then inner.getLast? else none)

/-- The same node over other parts. -/
def withParts : Expr → List Expr → Expr
  | call l n _ d, parts => call l n parts d
  | unary l op _, [a] => unary l op a
  | arith l _ op _, [a, b] => arith l a op b
  | compare l _ op _, [a, b] => compare l a op b
  | logic l _ op _, [a, b] => logic l a op b
  | nullIf l _ _, [a, b] => nullIf l a b
  | case l o _ e, parts => caseOf l o.isSome e.isSome parts
  | cast l _ t, [a] => cast l a t
  | isNull l _ n, [a] => isNull l a n
  | between l _ _ _ n, [a, lo, hi] => between l a lo hi n
  | like l _ _ n, [a, p] => like l a p n
  | inList l _ _ n, a :: parts => inList l a parts n
  | e, _ => e

section Effects

variable {m : Type → Type} [Monad m] [LawfulMonad m] (f : Expr → m Expr)

/-- A walk over branches is a walk over their conditions and results in turn. -/
theorem mapM_branches (bs : List (Expr × Expr)) :
    (bs.flatMap fun b => [b.1, b.2]).mapM f =
      (fun bs' => bs'.flatMap fun b => [b.1, b.2]) <$> bs.mapM fun (w, t) => do
        let w ← f w
        let t ← f t
        return (w, t) := by
  induction bs with
  | nil => simp
  | cons b bs ih => simp [List.mapM_cons, ih]

/-- A node is rebuilt by a walk over its parts, in the order they are written. -/
theorem mapChildren_eq_withParts (e : Expr) :
    e.mapChildren f = e.withParts <$> e.children.mapM f := by
  cases e with
  | case l o bs e =>
      cases o <;> cases e <;>
        simp [mapChildren, children, withParts, caseOf, List.mapM_append, mapM_branches,
          pairs_branches]
  | call l n as d =>
      have hparts : (call l n as d).withParts = fun as' => call l n as' d := rfl
      simp [mapChildren, children, hparts]
  | _ => simp [mapChildren, children, withParts, List.mapM_cons]

end Effects

/-! ## Nodes that differ in their parts only -/

/-- The nodes have the same kind, operator, names, flags, type and position; their parts may be
    different ones. -/
def SameNode : Expr → Expr → Prop :=
  Congruent fun _ _ => True

theorem forall₂_append_iff {R : Expr → Expr → Prop} {as as' bs bs' : List Expr}
    (hlength : as.length = as'.length) :
    List.Forall₂ R (as ++ bs) (as' ++ bs') ↔ List.Forall₂ R as as' ∧ List.Forall₂ R bs bs' := by
  constructor
  · intro h
    have htake := List.forall₂_take_append _ _ _ h
    have hdrop := List.forall₂_drop_append _ _ _ h
    rw [← hlength] at htake hdrop
    simpa using And.intro htake hdrop
  · rintro ⟨has, hbs⟩
    exact List.rel_append has hbs

theorem optionRel_iff {R : Expr → Expr → Prop} {o o' : Option Expr}
    (h : Option.Rel (fun _ _ => True) o o') :
    Option.Rel R o o' ↔ List.Forall₂ R o.toList o'.toList := by
  cases h <;> simp

theorem branchesRel_iff {R : Expr → Expr → Prop} {bs bs' : List (Expr × Expr)}
    (h : List.Forall₂ (BranchRel fun _ _ => True) bs bs') :
    List.Forall₂ (BranchRel R) bs bs' ↔
      List.Forall₂ R (bs.flatMap fun b => [b.1, b.2]) (bs'.flatMap fun b => [b.1, b.2]) := by
  induction h with
  | nil => simp
  | cons _ _ ih => simp [ih, BranchRel, and_assoc]

/-- Nodes are congruent when they are the same but for their parts, and the parts are related. -/
theorem congruent_iff {R : Expr → Expr → Prop} {e e' : Expr} :
    Congruent R e e' ↔ e.SameNode e' ∧ List.Forall₂ R e.children e'.children := by
  refine ⟨fun h => ⟨h.imp fun _ _ _ => trivial, h.children⟩, fun ⟨hnode, hparts⟩ => ?_⟩
  cases hnode with
  | literal l v => exact .literal l v
  | column l c => exact .column l c
  | wildcard l => exact .wildcard l
  | call l n d _ => exact .call l n d hparts
  | case l ho hbs he =>
      have hlength := (forall₂_toList ho).length_eq
      have hbranches := ((branchesRel_iff hbs).mp hbs).length_eq
      simp only [children] at hparts
      rw [forall₂_append_iff (by rw [List.length_append, List.length_append, hlength, hbranches]),
        forall₂_append_iff hlength] at hparts
      exact .case l ((optionRel_iff ho).mpr hparts.1.1) ((branchesRel_iff hbs).mpr hparts.1.2)
        ((optionRel_iff he).mpr hparts.2)
  | inList l n _ _ =>
      obtain ⟨he, hes⟩ := List.forall₂_cons.mp hparts
      exact .inList l n he hes
  | _ =>
      simp only [children, List.forall₂_cons, List.Forall₂.nil, and_true] at hparts
      constructor <;> simp only [hparts]

/-! ## The parts that are asked about -/

variable {ε : Type} {f : Expr → Except ε Expr}

/-- `f`, together with a list of what it was asked about. -/
def logged (f : Expr → Except ε Expr) (c : Expr) : ExceptT ε (StateM (List Expr)) Expr :=
  .mk fun log => (f c, log ++ [c])

/-- A walk with the list of what it asked about. -/
def runLog {α : Type} (walk : ExceptT ε (StateM (List Expr)) α) (log : List Expr) :
    Except ε α × List Expr :=
  (walk.run.run log).run

/-- The parts up to the first one at which `f` fails, that one included. -/
def asked (f : Expr → Except ε Expr) : List Expr → List Expr
  | [] => []
  | c :: cs =>
    match f c with
    | .ok _ => c :: asked f cs
    | .error _ => [c]

theorem runLog_map {α β : Type} (g : α → β) (walk : ExceptT ε (StateM (List Expr)) α)
    (log : List Expr) :
    runLog (g <$> walk) log = (g <$> (runLog walk log).1, (runLog walk log).2) := by
  simp [runLog]
  rfl

theorem runLog_bind {α : Type} (f : Expr → Except ε Expr) (c : Expr)
    (next : Expr → ExceptT ε (StateM (List Expr)) α) (log : List Expr) :
    runLog (logged f c >>= next) log =
      match f c with
      | .ok c' => runLog (next c') (log ++ [c])
      | .error err => (.error err, log ++ [c]) := by
  have hstep (r : Except ε Expr) :
      runLog (.mk (fun log => (r, log ++ [c])) >>= next) log =
        match r with
        | .ok c' => runLog (next c') (log ++ [c])
        | .error err => (.error err, log ++ [c]) := by
    cases r <;> rfl
  exact hstep (f c)

theorem runLog_mapM (f : Expr → Except ε Expr) (cs log : List Expr) :
    runLog (cs.mapM (logged f)) log = (cs.mapM f, log ++ asked f cs) := by
  induction cs generalizing log with
  | nil =>
      rw [asked, List.append_nil]
      rfl
  | cons c cs ih =>
      rw [List.mapM_cons, List.mapM_cons, runLog_bind, asked]
      cases f c with
      | error err => rfl
      | ok c' =>
          simp only [bind_pure_comp, runLog_map, ih, List.append_assoc, List.singleton_append]
          rfl

/-- A walk over the parts of a node asks about them up to the first one that fails, and gives what
    it gives without the list. -/
theorem runLog_mapChildren (f : Expr → Except ε Expr) (e : Expr) :
    runLog (e.mapChildren (logged f)) [] = (e.mapChildren f, asked f e.children) := by
  rw [mapChildren_eq_withParts, mapChildren_eq_withParts, runLog_map, runLog_mapM, List.nil_append]

theorem asked_of_forall {cs : List Expr} (h : ∀ c ∈ cs, ∃ c', f c = .ok c') : asked f cs = cs := by
  induction cs with
  | nil => rfl
  | cons c cs ih =>
      rw [List.forall_mem_cons] at h
      obtain ⟨⟨c', hc⟩, hcs⟩ := h
      rw [asked, hc, ih hcs]

theorem asked_of_first {before after : List Expr} {c : Expr} {err : ε}
    (h : ∀ b ∈ before, ∃ b', f b = .ok b') (hc : f c = .error err) :
    asked f (before ++ c :: after) = before ++ [c] := by
  induction before with
  | nil => rw [List.nil_append, asked, hc, List.nil_append]
  | cons b before ih =>
      rw [List.forall_mem_cons] at h
      obtain ⟨⟨b', hb⟩, hbefore⟩ := h
      rw [List.cons_append, asked, hb, ih hbefore, List.cons_append]

/-- A walk over the parts of a node succeeds exactly if each part does. -/
theorem exists_mapChildren_iff (f : Expr → Except ε Expr) (e : Expr) :
    (∃ e', e.mapChildren f = .ok e') ↔ ∀ c ∈ e.children, ∃ c', f c = .ok c' := by
  simp only [mapChildren_eq_ok]
  refine ⟨fun ⟨e', h⟩ c hc => ?_, exists_congruent⟩
  obtain ⟨c', _, hc'⟩ := exists_right h.children hc
  exact ⟨c', hc'⟩

theorem mapChildren_eq_error {e : Expr} {err : ε} :
    e.mapChildren f = .error err ↔ ∃ c, FirstError f e.children c err := by
  rw [mapChildren_eq_withParts, map_eq_error, mapM_eq_error]

/-- `children` and `mapChildren` are one walk. A node is rebuilt exactly if `f` succeeds at all its
    parts, and then as the same node over what `f` made of them, in their order. If it is not, the
    error is that of the first part at which `f` fails. `f` is asked about the parts in their order,
    about all of them if it always succeeds, and about none after the first at which it fails. A
    node whose parts all stay as they are stays as it is. -/
theorem mapChildren_follows_children (f : Expr → Except ε Expr) (e : Expr) :
    ((∃ e', e.mapChildren f = .ok e') ↔ ∀ c ∈ e.children, ∃ c', f c = .ok c') ∧
    (∀ e', e.mapChildren f = .ok e' ↔
      e.SameNode e' ∧ List.Forall₂ (fun c c' => f c = .ok c') e.children e'.children) ∧
    (∀ err, e.mapChildren f = .error err ↔ ∃ c, FirstError f e.children c err) ∧
    (runLog (e.mapChildren (logged f)) []).1 = e.mapChildren f ∧
    ((∀ c ∈ e.children, ∃ c', f c = .ok c') →
      (runLog (e.mapChildren (logged f)) []).2 = e.children) ∧
    (∀ before c after, e.children = before ++ c :: after → (∀ b ∈ before, ∃ b', f b = .ok b') →
      (∃ err, f c = .error err) →
      (runLog (e.mapChildren (logged f)) []).2 = before ++ [c]) ∧
    e.mapChildren (fun c => (.ok c : Except ε Expr)) = .ok e := by
  rw [runLog_mapChildren]
  refine ⟨exists_mapChildren_iff f e, fun _ => mapChildren_eq_ok.trans congruent_iff,
    fun _ => mapChildren_eq_error, rfl, asked_of_forall, ?_, ?_⟩
  · rintro before c after hparts hbefore ⟨err, hc⟩
    rw [hparts]
    exact asked_of_first hbefore hc
  · exact mapChildren_eq_ok.mpr (congruent_self fun _ _ => rfl)

/-- A number that was not read from a script. -/
def numbered (n : Int32) : Expr :=
  .literal none (.integer n)

/-- A `CASE` with all its optional parts, which are numbered in the order they are written. -/
def numberedCase : Expr :=
  .case none (some (numbered 0)) [(numbered 1, numbered 2), (numbered 3, numbered 4)]
    (some (numbered 5))

/-- A step that negates a part, and fails at the number three. -/
def negateToThree (e : Expr) : Except String Expr :=
  match e with
  | .literal _ (.integer 3) => .error "three"
  | e => .ok (.unary none .minus e)

theorem mapChildren_follows_children_numberedCase :
    numberedCase.mapChildren negateToThree = .error "three" ∧
      (runLog (numberedCase.mapChildren (logged negateToThree)) []).2 =
        [numbered 0, numbered 1, numbered 2] ++ [numbered 3] := by
  obtain ⟨_, _, herror, _, _, hlog, _⟩ := mapChildren_follows_children negateToThree numberedCase
  have hparts : numberedCase.children =
      [numbered 0, numbered 1, numbered 2] ++ numbered 3 :: [numbered 4, numbered 5] := rfl
  have hbefore : ∀ b ∈ [numbered 0, numbered 1, numbered 2], ∃ b', negateToThree b = .ok b' := by
    intro b hb
    simp only [List.mem_cons, List.not_mem_nil, or_false] at hb
    rcases hb with rfl | rfl | rfl <;> exact ⟨_, rfl⟩
  exact ⟨(herror _).mpr ⟨numbered 3, _, _, hparts, hbefore, rfl⟩,
    hlog _ _ _ hparts hbefore ⟨_, rfl⟩⟩

end StreamSql.Expr
