import Formulary.Proofs.Markup.Bytes
import Formulary.Proofs.PowerText
import Formulary.Proofs.Shape

/-!
# Exchanging the tree of a formula

The leaves of the tree of a valid formula have texts of letters, numerals and operators
(`spelled_rootOf`).  Such texts have no white space and no sign that styles a terminal, so the markup
that is printed for the tree is the markup that was written for it, and it is read as the tree.
-/

namespace Formulary.Markup

/-! ## 1. Characters of markup -/

theorem notMem_escape {mark : Char} (hmark : IsTextual mark) {cs : List Char} (h : mark ∉ cs) :
    mark ∉ escape cs := by
  intro hmem
  obtain ⟨c, hc, hmem⟩ := List.mem_flatMap.1 hmem
  refine notMem_escapeChar hmark ?_ hmem
  rintro rfl
  exact h hc

theorem notMem_writeRow {mark : Char} {es : List Element} (h : ∀ e ∈ es, mark ∉ write e) :
    mark ∉ writeRow es := by
  induction es with
  | nil => simp [writeRow]
  | cons e es ih =>
    obtain ⟨he, hes⟩ := List.forall_mem_cons.1 h
    rw [writeRow, List.mem_append, not_or]
    exact ⟨he, ih hes⟩

theorem notMem_write {P : String → Prop} {mark : Char} (hmark : IsTextual mark)
    (hP : ∀ t, P t → mark ∉ t.toList) {e : Element} (h : e.Spelled P) : mark ∉ write e := by
  induction h with
  | @mk tag text children htag htext _ ih =>
    have hname := htag.notMem hmark
    have hrow := notMem_writeRow ih
    have hescape : mark ∉ escape (text.getD "").toList := by
      apply notMem_escape hmark
      cases text with
      | none => simp
      | some t => exact hP t (htext t rfl)
    have hsigns := hmark.2
    simp only [List.mem_cons, List.not_mem_nil, or_false, not_or] at hsigns
    by_cases hempty : ((text.getD "").isEmpty && children.isEmpty) = true
    · rw [write_empty hempty]
      simp [hname, hsigns]
    · rw [write_full hempty]
      simp [hname, hrow, hescape, hsigns]

end Formulary.Markup

namespace Formulary.Formula

open Arithmetic (IsSign)
open Markup (isAllowed)

/-! ## 2. The tree of a formula -/

/-- A text without white space, whose characters may all stand in markup. -/
def Visible (t : String) : Prop :=
  ∀ c ∈ t.toList, isAllowed c = true ∧ Text.isSpace c = false

theorem isAllowed_of_isAlphanumeric {c : Char} (h : Text.isAlphanumeric c = true) :
    isAllowed c = true := by
  have hranges : ∀ r ∈ Text.alphanumericRanges, 0x20 ≤ r.1 ∧ (r.2 < 0xFFFE ∨ 0xFFFF < r.1) := by
    decide +kernel
  have hcode : 0x20 ≤ c.toNat ∧ c.toNat ≠ 0xFFFE ∧ c.toNat ≠ 0xFFFF := by
    rw [Text.isAlphanumeric, Bool.or_eq_true_iff] at h
    rcases h with hbasic | hrange
    · delta Char.isAlphanum Char.isAlpha Char.isUpper Char.isLower Char.isDigit at hbasic
      simp [UInt32.le_iff_toNat_le] at hbasic
      omega
    · refine Text.Ranges.forall_of_contains (P := fun n => 0x20 ≤ n ∧ n ≠ 0xFFFE ∧ n ≠ 0xFFFF)
        (fun r hr n hlow hhigh => ?_) hrange
      have hends := hranges r hr
      omega
  simp [isAllowed, hcode]

theorem IsOperand.visible {word : String} (h : IsOperand word) : Visible word := by
  intro c hc
  obtain ⟨hchar, hword⟩ := h.chars c hc
  rw [Token.isWordChar, Bool.and_eq_true_iff, Bool.not_eq_true'] at hword
  exact ⟨isAllowed_of_isAlphanumeric hchar, hword.1⟩

theorem visible_operator {word : String} (h : Symbol.isOperator word = true) : Visible word := by
  obtain ⟨c, hc, hlist⟩ := Symbol.toList_of_isOperator h
  unfold Visible
  rw [hlist, List.forall_mem_singleton]
  simp only [Symbol.isOperatorChar, Symbol.operatorChars, List.contains_eq_mem,
    decide_eq_true_eq, List.mem_cons, List.not_mem_nil, or_false] at hc
  rcases hc with rfl | rfl | rfl | rfl | rfl | rfl | rfl
  all_goals decide

theorem visible_sign {word : String} (h : IsSign word) : Visible word := by
  apply visible_operator
  rcases h with rfl | rfl | rfl
  all_goals rfl

theorem spelled_shape {role : Role} {n : Node} (h : Shape role n) : n.Spelled Visible := by
  induction h with
  | word h => exact .leaf _ h.visible
  | @group items _ ih =>
    refine .row (by decide) fun n hn => ?_
    simp only [List.cons_append, List.mem_cons, List.mem_append, List.not_mem_nil, or_false] at hn
    rcases hn with rfl | hn | rfl
    · exact .leaf _ (visible_operator rfl)
    · exact ih n hn
    · exact .leaf _ (visible_operator rfl)
  | ofAtom _ ih => exact ih
  | pair _ _ ihl ihr => exact .binary _ ihl ihr
  | sign h => exact .leaf _ (visible_sign h)
  | term _ _ ih => exact ih
  | row _ ih => exact .row (by decide) ih

theorem spelled_top {n : Node} (h : IsTop n) : n.Spelled Visible := by
  cases h with
  | sign h => exact .leaf _ (visible_sign h)
  | chain h => exact spelled_shape h
  | squareRoot h => exact .unary _ (spelled_shape h)

theorem spelled_rootOf {nodes : List Node} (h : ∀ n ∈ nodes, IsTop n) :
    (rootOf nodes).Spelled Visible := by
  have hrow : ∀ n ∈ nodes, n.Spelled Visible := fun n hn => spelled_top (h n hn)
  unfold rootOf
  split
  · refine .row (by decide) fun n hn => ?_
    obtain rfl := List.mem_singleton.1 hn
    exact .row (by decide) hrow
  · exact .row (by decide) hrow

end Formulary.Formula

namespace Formulary.CommandLine

open Formula (Visible)
open Text (unified utf8)

/-! ## 3. Commands -/

theorem dropCodes_of_notMem {cs : List Char} (h : '\x1b' ∉ cs) : dropCodes cs = cs := by
  induction cs with
  | nil => rw [dropCodes]
  | cons c cs ih =>
    rw [List.mem_cons, not_or] at h
    have hnone : takeCode? c cs = none := by
      rw [takeCode?, if_neg fun hc => h.1 hc.symm]
    rw [dropCodes]
    split
    · next heq => exact absurd (hnone.symm.trans heq) (by simp)
    · rw [ih h.2]

theorem output_printing {s : String} (h : '\x1b' ∉ s.toList) :
    (printing s).output = s ++ "\n" := by
  have hplain : plain s = s := by
    rw [plain, dropCodes_of_notMem h, String.ofList_toList]
  show String.join [plain s ++ "\n"] = _
  rw [hplain]
  simp [String.join]

-- the check of the formula is passed, and the analysis has the tree
theorem withTree_of_parse {formula : String} {tree : Node} {given : List String}
    (h : Formula.parse formula = .ok tree)
    (hgiven : given = [] ∨ Formula.isValid formula given = true) (verbose : Bool)
    (use : Node → Outcome) : withTree verbose formula given use =
      (use tree).after (logLines verbose (passLines (Formula.analyse formula))) := by
  rw [Formula.parse] at h
  rw [withTree, if_neg (by rcases hgiven with rfl | hvalid <;> simp_all)]
  dsimp only
  rw [h]

theorem stripped_unified_of_visible {t : String} (h : Visible t) :
    Text.stripped (unified t) = t := by
  have hreturn : '\r' ∉ t.toList := fun hmem => absurd (h _ hmem).2 (by decide)
  have htrimmed : Code.Trimmed t.toList := .of_forall fun c hc => (h c hc).2
  rw [Text.unified_eq_self_iff.2 hreturn, Text.stripped, htrimmed.strip, String.ofList_toList]

-- a tree survives as a text, and as the bytes of what is printed for it
theorem exists_printed_tree {tree : Node} (h : tree.Spelled Visible) :
    ∃ xml, Markup.ofTree? tree = some xml ∧ Markup.treeOfText xml = .ok tree ∧
      Markup.treeOfBytes (printing xml).output.toUTF8.data.toList = .ok tree := by
  obtain ⟨e, hspelled, hof, hto⟩ := Markup.exists_element (h.mono fun t ht c hc => (ht c hc).1)
  have htexts : tree.mapTexts (fun t => Text.stripped (unified t)) = tree :=
    h.mapTexts_eq_self fun t ht => stripped_unified_of_visible ht
  have hread : Markup.treeOf (.ok (e.mapText (Markup.filled ∘ Markup.unifiedText))) = .ok tree := by
    rw [Markup.treeOf, hto, htexts]
  have hplain : '\x1b' ∉ (Markup.ofElement e).toList := by
    rw [Markup.ofElement, String.toList_ofList]
    exact Markup.notMem_write ⟨by decide, by decide⟩
      (fun t ht hmem => absurd (ht _ hmem) (by decide)) hspelled
  have hbytes : (printing (Markup.ofElement e)).output.toUTF8.data.toList =
      utf8 (Markup.write e ++ ['\n']) := by
    rw [output_printing hplain, Text.toList_toUTF8, String.toList_append, Markup.ofElement,
      String.toList_ofList]
    rfl
  refine ⟨Markup.ofElement e, hof, ?_, ?_⟩
  · rw [Markup.treeOfText_ofElement hspelled, hread]
  · rw [hbytes, Markup.treeOfBytes, Markup.readBytes_write hspelled (by simp), hread]

/-- **The tree of a valid formula survives as markup.**  What is written for it is read as the tree,
so converting a file that holds what the command `tree` printed comes to the same as the commands
on the formula itself, under all options; only the log has no lines about parsing. -/
theorem run_convert_tree {formula : String} {inputs : List String}
    (h : Formula.isValid formula inputs = true) :
    ∃ tree xml, Formula.parse formula = .ok tree ∧ Markup.ofTree? tree = some xml ∧
      Markup.treeOfText xml = .ok tree ∧
      ∀ (s : Surroundings) (path : String) (given : List String) (v verbose singleLine : Bool)
        (o options : Options), given = [] ∨ given = inputs →
        s.contents path = some (runFormula v o .tree formula given).output.toUTF8.data.toList →
        (Command.formula (if singleLine then .render else .emit) formula given).run s verbose
            options =
          ((Command.convert path singleLine).run s verbose options).after
            (logLines verbose (passLines (Formula.analyse formula))) := by
  obtain ⟨nodes, hparse, htop, -⟩ := Formula.parse_shape h
  obtain ⟨xml, hof, hread, hbytes⟩ := exists_printed_tree (Formula.spelled_rootOf htop)
  refine ⟨_, xml, hparse, hof, hread, ?_⟩
  intro s path given v verbose singleLine o options hgiven hfile
  have hvalid : given = [] ∨ Formula.isValid formula given = true := by
    rcases hgiven with hnone | rfl
    · exact .inl hnone
    · exact .inr h
  have htree : (runFormula v o .tree formula given).output = (printing xml).output := by
    rw [runFormula, withTree_of_parse hparse hvalid, hof]
    rfl
  rw [htree] at hfile
  have hconvert : (Command.convert path singleLine).run s verbose options =
      if singleLine then printing (Code.render options (Formula.rootOf nodes))
      else printingCode (Code.emit options (Formula.rootOf nodes)) := by
    rw [Command.run, hfile]
    dsimp only
    rw [runConvert, hbytes]
  rw [hconvert]
  cases singleLine with
  | false => exact withTree_of_parse hparse hvalid verbose _
  | true => exact withTree_of_parse hparse hvalid verbose _

theorem run_convert_tree_quotient : ∃ tree xml, Formula.parse "-sqrt(α+2)/b" = .ok tree ∧
    Markup.ofTree? tree = some xml ∧ Markup.treeOfText xml = .ok tree ∧
    ∀ options, ∃ s : Surroundings, s.contents "tree.xml" =
        some (runFormula false options .tree "-sqrt(α+2)/b" []).output.toUTF8.data.toList ∧
      (Command.formula .emit "-sqrt(α+2)/b" []).run s false options =
        ((Command.convert "tree.xml" false).run s false options).after "" := by
  have hvalid : Formula.isValid "-sqrt(α+2)/b" ["α", "b"] = true := by decide +kernel
  obtain ⟨tree, xml, hparse, hof, hread, hrun⟩ := run_convert_tree hvalid
  refine ⟨tree, xml, hparse, hof, hread, fun options => ?_⟩
  -- the file holds what was printed
  let printed := (runFormula false options .tree "-sqrt(α+2)/b" []).output
  let s : Surroundings := ⟨fun _ => some printed.toUTF8.data.toList, fun _ => none⟩
  have hfile : s.contents "tree.xml" = some printed.toUTF8.data.toList := by
    rw [Surroundings.contents, if_neg (by decide)]
  exact ⟨s, hfile, hrun s "tree.xml" [] false false false options options (.inl rfl) hfile⟩

end Formulary.CommandLine
