/-
  Constants of a query. A form of the grammar that is neither a constant nor in parentheses is never
  converted into a string (`yields_expr`), so a query that begins with a string has this string as
  its first constant or none (`yields_queryOf`).
-/
import StreamSql.Proofs.Grammar.Leading
import StreamSql.Script.Statement

namespace StreamSql.Script

open Outcome

variable {limit : Nat} {s : String}

/-! ## Forms that are no string -/

theorem numberLiteral_ne_string {negative : Bool} {digits : String} {v : Literal}
    (h : numberLiteral negative digits = .ok v) (s : String) : v ≠ .string s := by
  rintro rfl
  unfold numberLiteral at h
  simp only at h
  split at h <;> split at h
  · cases h
  · cases h
  · split at h <;> cases h
  · cases h

theorem callExpr_ne_string {loc : Option Location} {name : String} {args : List Expr}
    {distinct : Bool} {e : Expr} (h : callExpr loc name args distinct = .ok e) (s : String) :
    e ≠ .literal none (.string s) := by
  unfold callExpr at h
  split at h
  · split at h
    · cases h
      simp
    · cases h
  · cases h
    simp

section

-- a cast can then be opened without reading the name of its type
seal DataType.ofSqlName?

theorem expr_cast {n : Nat} {k : Grammar.CastForm} {t : Grammar.Term} {type : Grammar.TypeName}
    {format : Option Grammar.Shown} :
    expr limit (n + 1) (.cast k t type format) =
      match DataType.ofSqlName? type.text with
      | some ty => do return .cast none (← expr limit n t) ty
      | none => unsupported (.castType type.text) :=
  rfl

/-- Only a constant becomes a string. -/
theorem yields_expr {n : Nat} {t : Grammar.Term} (ht : t.Compound) :
    Yields (fun e => ∀ s, e ≠ .literal none (.string s)) (expr limit n t) := by
  cases n with
  | zero => cases t <;> exact .throw
  | succ n =>
      cases t with
      | value v => exact absurd ht id
      | nested t => exact absurd ht id
      | path is =>
          match is with
          | [q, c] => exact .bind fun _ => .pure (by simp)
          | [] | [_] | _ :: _ :: _ :: _ => exact .throw
      | sign op t =>
          have hunary : ∀ op e, Yields (fun e => ∀ s, e ≠ .literal none (.string s))
              (do return .unary none op (← e) : Reading Expr) :=
            fun op e => .bind fun _ => .pure (by simp)
          cases op with
          | factorial => exact .throw
          | plus => exact hunary _ _
          | not => exact hunary _ _
          | minus =>
              cases t with
              | value v =>
                  cases v with
                  | number digits long =>
                      refine .seq (.lift fun _ h => numberLiteral_ne_string h) fun v hv => .pure ?_
                      simpa using hv
                  | _ => exact hunary _ _
              | _ => exact hunary _ _
      | binary l op r =>
          refine .bind fun form => .bind fun l => .bind fun r => .pure ?_
          cases form <;> simp [InfixForm.expr]
      | call fn args form =>
          have hcall : ∀ loc name distinct, Yields (fun e => ∀ s, e ≠ .literal none (.string s))
              (do callExpr loc name (← argumentExprs limit n args) distinct : Reading Expr) :=
            fun _ _ _ => .bind fun _ => .lift fun _ h => callExpr_ne_string h
          refine .ite (.bind fun _ => .bind fun loc => ?_) (.bind fun loc => ?_)
          · exact .ite (.bind fun _ => hcall _ _ _) (hcall _ _ _)
          · exact .ite (.bind fun _ => hcall _ _ _) (hcall _ _ _)
      | case o bs e => exact .bind fun _ => .bind fun _ => .bind fun _ => .pure (by simp)
      | cast k t type format =>
          rw [expr_cast]
          split
          · exact .bind fun _ => .pure (by simp)
          · exact .throw
      | name i => exact .bind fun _ => .pure (by simp)
      | isNull t negated => exact .bind fun _ => .pure (by simp)
      | between t lo hi negated =>
          exact .bind fun _ => .bind fun _ => .bind fun _ => .pure (by simp)
      | like t p negated _ _ => exact .bind fun _ => .bind fun _ => .pure (by simp)
      | inList t ts negated => exact .bind fun _ => .bind fun _ => .pure (by simp)
      | star => exact .throw
      | argument _ _ => exact .throw
      | subquery _ => exact .throw
      | other _ _ => exact .throw

end

/-! ## The first item of a query -/

theorem yields_string {n : Nat} :
    Yields (fun e => e = .literal none (.string s)) (expr limit n (.value (.string s))) := by
  cases n with
  | zero => exact .throw
  | succ n =>
      have hliteral : Yields (fun v => v = .string s)
          (liftM (literal (.string s)) : Reading Literal) := by
        refine .lift fun v hv => ?_
        cases hv
        rfl
      exact .seq hliteral fun v hv => .pure (by rw [hv])

theorem yields_selectItem {i : Grammar.Item} (h : i.Leads s) :
    Yields (fun x => ∀ u a, x = .expr (.literal none (.string u)) a → u = s)
      (selectItem limit i) := by
  cases i with
  | expr t a =>
      rcases h with rfl | hcompound
      · refine .seq yields_string fun e he => .pure ?_
        rintro u a heq
        cases he
        cases heq
        rfl
      · refine .seq (yields_expr hcompound) fun e he => .pure ?_
        rintro u a heq
        cases heq
        exact absurd rfl (he u)
  | all o => exact .pure (by simp)
  | allOf p o => exact .bind fun _ => .pure (by simp)

theorem yields_selectItems {i : Grammar.Item} (h : i.Leads s) (is : List Grammar.Item) :
    Yields (fun xs => ∀ u a, xs.head? = some (.expr (.literal none (.string u)) a) → u = s)
      (selectItems limit (i :: is)) := by
  refine .seq (yields_selectItem h) fun x hx => .bind fun xs => .pure ?_
  intro u a heq
  exact hx u a (Option.some.inj heq)

/-- A query whose text begins with the string has no other constant as its first item. -/
theorem yields_queryOf {q : Grammar.Query} (h : q.body.Leads s) :
    Yields (fun x => ∀ u a, x.select.head? = some (.expr (.literal none (.string u)) a) → u = s)
      (queryOf limit q) := by
  unfold queryOf
  refine .ite .fails (.ite .fails ?_)
  split
  · exact .throw
  · rename_i sel hbody
    rw [hbody] at h
    obtain ⟨i, is, hitems, hleads⟩ := h
    rw [hitems]
    refine .ite .fails (.seq (yields_selectItems hleads is) fun items hselect => ?_)
    refine .bind fun source => .bind fun filter => .bind fun keys => .bind fun having => ?_
    split
    · exact .bind fun bound => .pure hselect
    · exact .bind fun bound => .pure hselect

end StreamSql.Script
