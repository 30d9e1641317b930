import Formulary.Formula.Parse
import Formulary.Proofs.Dangling
import Formulary.Proofs.Passes

/-!
# The steps of parsing

What parsing gives, from what its steps give: the fault of the first step that fails, or the root
over the stripped row.  The steps are taken in the form in which they are reasoned about: grouping
of the leaves of the words, complete folding, functions, stripping.
-/

namespace Formulary.Formula

/-- The grouped row of a formula, or the closing bracket that closes nothing. -/
def groupedRow (formula : String) : Except Fault (List Node) :=
  group (leaves (Token.scan formula)) ((Token.scan formula).map fun t => (t.position : Int))

/-! ## 1. The grouped row -/

theorem groupedRow_spec {formula : String} {row : List Node} (h : groupedRow formula = .ok row) :
    readingRow row = (Token.words formula).map leafOfWord ∧ IsGrouped row := by
  rw [groupedRow, leaves_scan] at h
  exact group_spec h

theorem Piece.native {n : Node} (h : Piece n) : holdsForeign n = false := by
  induction h with
  | word _ _ => rw [holdsForeign]
  | group _ ih =>
    rw [holdsForeign, holdsForeignRow_eq_false_iff]
    exact forall_mem_group (by rw [holdsForeign]) ih (by rw [holdsForeign])

theorem IsGrouped.native {row : List Node} (h : IsGrouped row) :
    ∀ n ∈ row, holdsForeign n = false := by
  intro n hn
  rcases h n hn with hp | rfl
  · exact hp.native
  · rw [holdsForeign]

/-! ## 2. Functions -/

/-- How the function names of a row fold: a name takes the node after it, and any other node stays. -/
inductive NameFold : List Node → List Node → Prop
  | nil : NameFold [] []
  | name {n argument : Node} {rest out : List Node} {label : String}
      (hname : functionName? n = some label) (h : NameFold rest out) :
      NameFold (n :: argument :: rest) (.unary .squareRoot argument :: out)
  | other {n : Node} {rest out : List Node} (hname : functionName? n = none)
      (h : NameFold rest out) : NameFold (n :: rest) (n :: out)

theorem nameFold_of_foldFunctions {row out : List Node} (h : foldFunctions row = .ok out) :
    NameFold row out := by
  induction row using foldFunctions.induct generalizing out with
  | case1 =>
    rw [← Except.ok.inj h]
    exact .nil
  -- a name needs a node after it
  | case2 n label hname =>
    rw [foldFunctions_last hname] at h
    exact absurd h (by simp)
  | case3 n label hname argument rest ih =>
    rw [foldFunctions_name hname] at h
    obtain ⟨more, hmore, rfl⟩ := map_eq_ok_iff.1 h
    exact .name hname (ih hmore)
  | case4 n rest hname ih =>
    rw [foldFunctions_other hname] at h
    obtain ⟨more, hmore, rfl⟩ := map_eq_ok_iff.1 h
    exact .other hname (ih hmore)

-- what holds of the nodes of a row, and of the square root of each, holds after its function names
-- are folded
theorem forall_mem_foldFunctions {P : Node → Prop}
    (hroot : ∀ content, P content → P (.unary .squareRoot content)) {row out : List Node}
    (hrow : ∀ n ∈ row, P n) (h : foldFunctions row = .ok out) : ∀ n ∈ out, P n := by
  replace h := nameFold_of_foldFunctions h
  induction h with
  | nil => exact hrow
  | name _ _ ih =>
    obtain ⟨-, hrest⟩ := List.forall_mem_cons.1 hrow
    obtain ⟨hargument, hrest⟩ := List.forall_mem_cons.1 hrest
    exact List.forall_mem_cons.2 ⟨hroot _ hargument, ih hrest⟩
  | other _ _ ih =>
    obtain ⟨hn, hrest⟩ := List.forall_mem_cons.1 hrow
    exact List.forall_mem_cons.2 ⟨hn, ih hrest⟩

/-! ## 3. Parsing -/

section

variable {formula : String} {row out applied : List Node} {fault : Fault}

theorem parse_of_grouping (h : groupedRow formula = .error fault) :
    parse formula = .error fault := by
  rw [groupedRow] at h
  rw [parse, analyse]
  simp only [h]

theorem parse_of_folding (hrow : groupedRow formula = .ok row) (h : foldedFrom [] row = none) :
    ∃ kind, parse formula = .error (.danglingOperator (symbolOf kind)) := by
  cases hf : foldOperators row with
  | ok s =>
    rw [foldOperators_ok_iff.1 ⟨s, hf, rfl⟩] at h
    exact absurd h (by simp)
  | error fault =>
    obtain ⟨kind, rfl⟩ := foldOperators_fault (groupedRow_spec hrow).2.native hf
    refine ⟨kind, ?_⟩
    rw [groupedRow] at hrow
    rw [parse, analyse]
    simp only [hrow, hf]

theorem parse_of_functions (hrow : groupedRow formula = .ok row)
    (hout : foldedFrom [] row = some out) (h : foldFunctions out = .error fault) :
    parse formula = .error fault := by
  obtain ⟨s, hs, rfl⟩ := foldOperators_ok_iff.2 hout
  rw [groupedRow] at hrow
  rw [parse, analyse]
  simp only [hrow, hs, h]

theorem parse_of_steps (hrow : groupedRow formula = .ok row)
    (hout : foldedFrom [] row = some out) (h : foldFunctions out = .ok applied) :
    parse formula = .ok (rootOf (settle applied).nodes) := by
  obtain ⟨s, hs, rfl⟩ := foldOperators_ok_iff.2 hout
  -- stripping refuses what is not a node, but folding has left nothing of that sort
  have hnative : holdsForeignRow applied = false := by
    rw [holdsForeignRow_eq_false_iff]
    refine forall_mem_foldFunctions (fun _ hc => ?_) (foldedFrom_native hout) h
    rw [holdsForeign, hc]
  rw [groupedRow] at hrow
  rw [parse, analyse]
  simp only [hrow, hs, h, stripBrackets, hnative]
  rfl

theorem parse_eq_ok_iff {tree : Node} : parse formula = .ok tree ↔
    ∃ row out applied, groupedRow formula = .ok row ∧ foldedFrom [] row = some out ∧
      foldFunctions out = .ok applied ∧ tree = rootOf (settle applied).nodes := by
  constructor
  · intro h
    -- a step that fails gives its fault, so each step has a result
    cases hrow : groupedRow formula with
    | error fault =>
      rw [parse_of_grouping hrow] at h
      exact absurd h (by simp)
    | ok row =>
      cases hout : foldedFrom [] row with
      | none =>
        obtain ⟨kind, hk⟩ := parse_of_folding hrow hout
        rw [hk] at h
        exact absurd h (by simp)
      | some out =>
        cases happ : foldFunctions out with
        | error fault =>
          rw [parse_of_functions hrow hout happ] at h
          exact absurd h (by simp)
        | ok applied =>
          rw [parse_of_steps hrow hout happ] at h
          exact ⟨row, out, applied, rfl, hout, happ, (Except.ok.inj h).symm⟩
  · rintro ⟨row, out, applied, hrow, hout, happ, rfl⟩
    exact parse_of_steps hrow hout happ

end

theorem rootOf_eq (nodes : List Node) : ∃ items, rootOf nodes = .root items := by
  unfold rootOf
  split
  · exact ⟨_, rfl⟩
  · exact ⟨_, rfl⟩

end Formulary.Formula
