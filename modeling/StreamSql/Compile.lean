/-
  From a script to the plans of its statements: `PlanBuilder` of the planner with `compile`,
  `plan_statement`, `build_logical_plan` and `explain`, which all go through `run_stages`. Statements
  of one script do not see what the others create; a session adds the created relations to its
  catalog once the whole script has been compiled.
-/
import StreamSql.Plan.Build
import StreamSql.Plan.Explain
import StreamSql.Script.Statement

namespace StreamSql

/-- A statement with everything that was found out on the way to its plan. -/
structure Compiled where
  text : String
  analysis : Analysis
  aggregation : Aggregation
  plan : Plan
  deriving Inhabited

/-- The relation that the statement creates. -/
def Compiled.created? (c : Compiled) : Option (String × List Column) :=
  match c.plan with
  | .sink target _ true _ _ schema => some (target, schema.toColumns)
  | _ => none

namespace Planner

/-- The stages from a statement to its plan. -/
def stages (p : Planner) (s : Prepared) : Except Error Compiled := do
  let analysis ← Analysis.ofStatement p.catalog p.config s.statement
  let aggregation ← Aggregation.ofAnalysis p.functions p.config analysis
  let plan ← p.build analysis aggregation
  return ⟨s.text, analysis, aggregation, plan⟩

/-- Compile a statement. An error names the statement. -/
def compileStatement (p : Planner) (s : Prepared) : Except Error Compiled :=
  match p.stages s with
  | .ok c => .ok c
  | .error e => .error (e.inStatement s.text)

/-- The statements of a script, ready to be planned. -/
def prepare (p : Planner) (sql : String) : Except Error (List Prepared) :=
  Script.prepare p.config.maxDepth sql

/-- Compile the statements of a script in order, up to the first error. -/
def compile (p : Planner) (sql : String) : Except Error (List Compiled) := do
  (← p.prepare sql).mapM p.compileStatement

/-- The plan of the first statement of a script. -/
def plan (p : Planner) (sql : String) : Except Error Plan := do
  match ← p.prepare sql with
  | s :: _ => return (← p.compileStatement s).plan
  | [] => .error (.parse .noStatement)

/-- The plan of the first statement of a script in words. -/
def explain (p : Planner) (sql : String) : Except Error String := do
  return (← p.plan sql).explain

/-- The planner after a statement, and whether the relation that it creates takes the place of
    another one. -/
def adopt (p : Planner) (c : Compiled) : Planner × Option Bool :=
  match c.created? with
  | some (name, columns) =>
    let (catalog, replaced) := p.catalog.register name columns
    ({ p with catalog }, some replaced)
  | none => (p, none)

/-- Compile a script and add the relations that it creates to the catalog. -/
def run (p : Planner) (sql : String) : Except Error (List (Compiled × Option Bool) × Planner) := do
  let cs ← p.compile sql
  return cs.foldl (fun (done, q) c =>
    let (q, replaced) := q.adopt c
    (done ++ [(c, replaced)], q)) ([], p)

end Planner

end StreamSql
