/-
  A plan as indented text (`explain_plan` of the planner), an operator on a line, each above the
  operators it reads from.
-/
import StreamSql.Plan.Basic

namespace StreamSql.Plan

/-- A line at a depth of indentation. -/
def line (indent : Nat) (text : String) : String :=
  String.ofList (List.replicate (2 * indent) ' ') ++ text ++ "\n"

def joinWord : JoinType → String
  | .inner => "inner"
  | .left => "left"
  | .outer => "outer"

/-- The names of the columns of a source. -/
def columnList (s : Schema) : String :=
  "[" ++ ", ".intercalate (s.fields.map (·.name)) ++ "]"

/-- The text of a plan at a depth of indentation. -/
def explainAt (indent : Nat) : Plan → String
  | source n aliasName s =>
    let name := match aliasName with
      | some a => n ++ " AS " ++ a
      | none => n
    line indent ("Source " ++ name ++ " " ++ columnList s)
  | filter e p _ => line indent ("Filter " ++ e.text) ++ explainAt (indent + 1) p
  | aggregate keys calls window p _ =>
    let head := match window with
      | some w => "Aggregate window=" ++ w.text
      | none => "Aggregate"
    line indent head ++
      line (indent + 1) ("group_by=" ++ toString keys.length) ++
      String.join (keys.map fun k => line (indent + 2) k.text) ++
      line (indent + 1) ("aggregates=" ++ toString calls.length) ++
      String.join (calls.map fun c => line (indent + 2) (c.column ++ " := " ++ c.call.text)) ++
      explainAt (indent + 1) p
  | project items p _ =>
    line indent "Project" ++
      String.join (items.map fun (e, n) => line (indent + 1) (n ++ " := " ++ e.text)) ++
      explainAt (indent + 1) p
  | join type lk rk l r _ =>
    line indent ("Join type=" ++ joinWord type ++ " on=" ++ lk.text ++ " = " ++ rk.text) ++
      line (indent + 1) "left:" ++ explainAt (indent + 2) l ++
      line (indent + 1) "right:" ++ explainAt (indent + 2) r
  | limit n p _ => line indent ("Limit n=" ++ toString n) ++ explainAt (indent + 1) p
  | sink target kind creates ps p _ =>
    let verb := if creates then "create" else "insert"
    line indent ("Sink " ++ verb ++ " " ++ kind.text ++ " " ++ target) ++
      String.join (ps.map fun (k, v) => line (indent + 1) (k ++ "=" ++ v)) ++
      explainAt (indent + 1) p

/-- The text of a plan. -/
def explain (p : Plan) : String :=
  explainAt 0 p

end StreamSql.Plan
