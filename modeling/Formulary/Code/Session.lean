import Formulary.Code.Emission

/-!
# Sessions: several actions on one draft

Host code may share one context and one page among several actions.  A fault stops its own action
only; what that action wrote and recorded before stays, and the session goes on.
-/

namespace Formulary.Code

/-- An action on a shared draft. -/
inductive Action where
  /-- Note that a node is visited. -/
  | record (n : Node)
  /-- Note that a variable is used. -/
  | addVariable (name : String)
  /-- Note a running total; the answer is the statement that starts it. -/
  | addAccumulator (total : Accumulator)
  /-- Ask for the declaration of a variable. -/
  | declaration (name : String)
  /-- Write the code of a node on the shared page. -/
  | visit (n : Node)
  /-- Ask for the code of a node, written on a page of its own. -/
  | emit (n : Node)

/-- The draft after an action, and its answer if it has one. -/
def Action.perform (d : Draft) : Action → Draft × Except Fault (Option String)
  | .record n => ({ d with context := d.context.record n }, .ok none)
  | .addVariable name => ({ d with context := d.context.addVariable name }, .ok none)
  | .addAccumulator total =>
    ({ d with context := d.context.addAccumulator total }, .ok (some (d.context.startOf total)))
  | .declaration name => (d, .ok (some (d.context.declaration name)))
  | .visit n =>
    match Code.visit n d with
    | (d, none) => (d, .ok none)
    | (d, some fault) => (d, .error fault)
  | .emit n =>
    match emitIn d.context n with
    | (context, .ok code) => ({ d with context }, .ok (some code))
    | (context, .error fault) => ({ d with context }, .error fault)

end Formulary.Code
