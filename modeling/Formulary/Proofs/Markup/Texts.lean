import Formulary.Markup.Tree
import Formulary.Proofs.Validity

/-!
# The texts of trees and of elements

Whatever is done to the texts of an element, its tree has the same shape: reading the element of a
tree gives back the tree, with what was done to the texts, less the white space at their ends
(`Spelled.stands`).
-/

namespace Formulary

/-! ## 1. Trees -/

namespace Node

mutual

/-- The tree with every text of a leaf changed. -/
def mapTexts (f : String → String) : Node → Node
  | .leaf kind text => .leaf kind (f text)
  | .row kind items => .row kind (mapTextsRow f items)
  | .unary kind content => .unary kind (mapTexts f content)
  | .binary kind left right => .binary kind (mapTexts f left) (mapTexts f right)
  | .bare => .bare
  | .missing => .missing
  | .stray value => .stray value

/-- The same for a row. -/
def mapTextsRow (f : String → String) : List Node → List Node
  | [] => []
  | n :: rest => mapTexts f n :: mapTextsRow f rest

end

theorem mapTextsRow_eq_self_iff {f : String → String} {items : List Node} :
    mapTextsRow f items = items ↔ ∀ n ∈ items, n.mapTexts f = n := by
  induction items with
  | nil => simp [mapTextsRow]
  | cons n rest ih => simp [mapTextsRow, ih]

/-- A tree stays as it is exactly if the text of every leaf does. -/
theorem mapTexts_eq_self_iff {f : String → String} {n : Node} :
    n.mapTexts f = n ↔ ∀ kind text, .leaf kind text ∈ n.preorder → f text = text := by
  induction n with
  | leaf kind text => simp [mapTexts, preorder]
  | row kind items ih =>
    have hrow : (∀ n ∈ items, n.mapTexts f = n) ↔
        ∀ kind text, .leaf kind text ∈ preorderRow items → f text = text := by
      constructor
      · intro h kind text hmem
        obtain ⟨n, hn, hmem⟩ := Formula.mem_preorderRow.1 hmem
        exact (ih n hn).1 (h n hn) kind text hmem
      · intro h n hn
        refine (ih n hn).2 fun kind text hmem => h kind text ?_
        exact Formula.mem_preorderRow.2 ⟨n, hn, hmem⟩
    simp [mapTexts, preorder, mapTextsRow_eq_self_iff, hrow]
  | unary kind content ih => simp [mapTexts, preorder, ih]
  | binary kind left right ihl ihr =>
    simp only [mapTexts, preorder, binary.injEq, true_and, ihl, ihr, List.mem_cons,
      List.mem_append, reduceCtorEq, false_or]
    constructor
    · rintro ⟨hl, hr⟩ kind text (hmem | hmem)
      · exact hl kind text hmem
      · exact hr kind text hmem
    · intro h
      exact ⟨fun kind text hmem => h kind text (.inl hmem),
        fun kind text hmem => h kind text (.inr hmem)⟩
  | bare | missing | stray => simp [mapTexts, preorder]

/-- A tree that has a markup, and whose leaves have texts with the given property. -/
inductive Spelled (P : String → Prop) : Node → Prop
  | leaf (kind : LeafKind) {text : String} (h : P text) : Spelled P (.leaf kind text)
  | row {kind : RowKind} {items : List Node} (hkind : kind ≠ .bare) (h : ∀ n ∈ items, Spelled P n) :
      Spelled P (.row kind items)
  | unary (kind : UnaryKind) {content : Node} (h : Spelled P content) :
      Spelled P (.unary kind content)
  | binary (kind : BinaryKind) {left right : Node} (hl : Spelled P left) (hr : Spelled P right) :
      Spelled P (.binary kind left right)

theorem Spelled.mono {P Q : String → Prop} (hPQ : ∀ text, P text → Q text) {n : Node}
    (h : Spelled P n) : Spelled Q n := by
  induction h with
  | leaf kind h => exact .leaf kind (hPQ _ h)
  | row hkind _ ih => exact .row hkind ih
  | unary kind _ ih => exact .unary kind ih
  | binary kind _ _ ihl ihr => exact .binary kind ihl ihr

theorem Spelled.mapTexts_congr {P : String → Prop} {f g : String → String}
    (hfg : ∀ text, P text → f text = g text) {n : Node} (h : Spelled P n) :
    n.mapTexts f = n.mapTexts g := by
  have hrow {items : List Node} (h : ∀ n ∈ items, n.mapTexts f = n.mapTexts g) :
      mapTextsRow f items = mapTextsRow g items := by
    induction items with
    | nil => rfl
    | cons n rest ih =>
      obtain ⟨hn, hrest⟩ := List.forall_mem_cons.1 h
      rw [mapTextsRow, mapTextsRow, hn, ih hrest]
  induction h with
  | leaf kind h => rw [mapTexts, mapTexts, hfg _ h]
  | row _ _ ih => rw [mapTexts, mapTexts, hrow ih]
  | unary kind _ ih => rw [mapTexts, mapTexts, ih]
  | binary kind _ _ ihl ihr => rw [mapTexts, mapTexts, ihl, ihr]

theorem Spelled.mapTexts_eq_self {P : String → Prop} {f : String → String}
    (hf : ∀ text, P text → f text = text) {n : Node} (h : Spelled P n) : n.mapTexts f = n := by
  induction h with
  | leaf kind h => rw [mapTexts, hf _ h]
  | row _ _ ih => rw [mapTexts, mapTextsRow_eq_self_iff.2 ih]
  | unary kind _ ih => rw [mapTexts, ih]
  | binary kind _ _ ihl ihr => rw [mapTexts, ihl, ihr]

end Node

/-! ## 2. Elements -/

/-- A tag that is a name and says nothing of a namespace. -/
def Markup.IsTag (tag : String) : Prop :=
  isName .usual tag.toList = true

namespace Element

open Markup (IsTag)

-- `Element.rec` goes through the children as a type of their own, so `induction` does not take it
@[elab_as_elim, induction_eliminator]
theorem induction {motive : Element → Prop}
    (mk : ∀ tag attributes text children tail, (∀ e ∈ children, motive e) →
      motive ⟨tag, attributes, text, children, tail⟩)
    (e : Element) : motive e :=
  @Element.rec motive (fun children => ∀ e ∈ children, motive e) mk (by simp)
    (fun _ _ he hrest => List.forall_mem_cons.2 ⟨he, hrest⟩) e

mutual

/-- The element with the text of every part changed. -/
def mapText (f : Option String → Option String) : Element → Element
  | ⟨tag, attributes, text, children, tail⟩ =>
    ⟨tag, attributes, f text, mapTextRow f children, tail⟩

/-- The same for a row of elements. -/
def mapTextRow (f : Option String → Option String) : List Element → List Element
  | [] => []
  | e :: rest => mapText f e :: mapTextRow f rest

end

theorem mapText_mapText (f g : Option String → Option String) (e : Element) :
    (e.mapText f).mapText g = e.mapText (g ∘ f) := by
  have hrow {children : List Element}
      (h : ∀ e ∈ children, (e.mapText f).mapText g = e.mapText (g ∘ f)) :
      mapTextRow g (mapTextRow f children) = mapTextRow (g ∘ f) children := by
    induction children with
    | nil => rfl
    | cons e rest ih =>
      obtain ⟨he, hrest⟩ := List.forall_mem_cons.1 h
      rw [mapTextRow, mapTextRow, mapTextRow, he, ih hrest]
  induction e with
  | mk tag attributes text children tail ih =>
    rw [mapText, mapText, mapText, hrow ih]
    rfl

/-- The texts of the element and of its parts have the given property. -/
inductive EachText (P : String → Prop) : Element → Prop
  | mk {e : Element} (htext : ∀ t ∈ e.text, P t) (h : ∀ c ∈ e.children, EachText P c) : EachText P e

/-- An element as it is made for a tree: its tags are names, it has neither attributes nor tails, and
its texts have the given property. -/
inductive Spelled (P : String → Prop) : Element → Prop
  | mk {tag : String} {text : Option String} {children : List Element} (htag : IsTag tag)
      (htext : ∀ t ∈ text, P t) (h : ∀ e ∈ children, Spelled P e) :
      Spelled P { tag, text, children }

theorem Spelled.mapText {P Q : String → Prop} {f : Option String → Option String}
    (hf : ∀ text, (∀ t ∈ text, P t) → ∀ t ∈ f text, Q t) {e : Element} (h : e.Spelled P) :
    (e.mapText f).Spelled Q := by
  have hrow {children : List Element} (h : ∀ e ∈ children, (e.mapText f).Spelled Q) :
      ∀ e ∈ mapTextRow f children, e.Spelled Q := by
    induction children with
    | nil => simp [mapTextRow]
    | cons e rest ih =>
      obtain ⟨he, hrest⟩ := List.forall_mem_cons.1 h
      rw [mapTextRow, List.forall_mem_cons]
      exact ⟨he, ih hrest⟩
  induction h with
  | mk htag htext _ ih =>
    rw [Element.mapText]
    exact .mk htag (hf _ htext) (hrow ih)

/-! ## 3. From a tree to its element and back -/

theorem mem_kinds {kind : Kind} (h : kind ≠ .row .bare) : kind ∈ Kind.all := by
  revert h
  cases kind with
  | leaf kind => cases kind <;> decide
  | row kind => cases kind <;> decide
  | unary kind => cases kind <;> decide
  | binary kind => cases kind <;> decide

theorem kindOfTag_tag (kind : Kind) (h : kind ≠ .row .bare) : kindOfTag kind.tag = .ok kind := by
  have hall : ∀ kind ∈ Kind.all, kindOfTag kind.tag = .ok kind := by decide +kernel
  exact hall kind (mem_kinds h)

-- a tag has a kind only through its local name
theorem kindOfTag_eq_ok {tag : String} {kind : Kind} (h : kindOfTag tag = .ok kind) :
    localName? tag = some kind.tag ∧ kind ∈ Kind.all := by
  unfold kindOfTag at h
  split at h
  · cases h
  next name hlocal =>
  split at h
  · next found hfound =>
    cases h
    unfold Kind.ofName? at hfound
    have htag : kind.tag = name := by simpa using List.find?_some hfound
    exact ⟨by rw [hlocal, htag], List.mem_of_find?_eq_some hfound⟩
  · cases h

/-- An element that is read has a tag with a kind, children that are read, and the node that the kind
makes of them. -/
theorem toNode_eq_ok {e : Element} {n : Node} (h : e.toNode = .ok n) :
    ∃ kind nodes, kindOfTag e.tag = .ok kind ∧ toNodes e.children = .ok nodes ∧
      assemble kind e.tag e.text nodes = .ok n := by
  cases e
  rw [toNode] at h
  split at h
  · cases h
  next kind hkind =>
  split at h
  · cases h
  next nodes hnodes => exact ⟨kind, nodes, hkind, hnodes, h⟩

theorem toNodes_cons_eq_ok {e : Element} {es : List Element} {nodes : List Node}
    (h : toNodes (e :: es) = .ok nodes) :
    ∃ n rest, e.toNode = .ok n ∧ toNodes es = .ok rest ∧ nodes = n :: rest := by
  rw [toNodes] at h
  split at h
  · cases h
  next n hn =>
  split at h
  · cases h
  next rest hrest =>
  cases h
  exact ⟨n, rest, hn, hrest, rfl⟩

theorem ne_bare_of_kindOfTag {tag : String} {kind : Kind} (h : kindOfTag tag = .ok kind) :
    kind ≠ .row .bare := by
  rintro rfl
  exact absurd (kindOfTag_eq_ok h).2 (by decide)

theorem assemble_spelled {P : String → Prop} {kind : Kind} (hkind : kind ≠ .row .bare) {tag : String}
    {text : Option String} (htext : P (Text.stripped (text.getD ""))) {nodes : List Node} {n : Node}
    (hnodes : ∀ n ∈ nodes, n.Spelled P) (h : assemble kind tag text nodes = .ok n) : n.Spelled P := by
  unfold assemble at h
  split at h
  · cases h
    exact .leaf _ htext
  · cases h
  · cases h
    exact .row (by simpa using hkind) hnodes
  · cases h
    exact .unary _ (hnodes _ (by simp))
  · cases h
  · cases h
    exact .binary _ (hnodes _ (by simp)) (hnodes _ (by simp))
  · cases h

theorem toNodes_spelled {P : String → Prop} {es : List Element} {nodes : List Node}
    (h : ∀ e ∈ es, ∀ n, e.toNode = .ok n → n.Spelled P) (hnodes : toNodes es = .ok nodes) :
    ∀ n ∈ nodes, n.Spelled P := by
  induction es generalizing nodes with
  | nil =>
    cases hnodes
    simp
  | cons e es ih =>
    obtain ⟨he, hes⟩ := List.forall_mem_cons.1 h
    obtain ⟨n, rest, hn, hrest, rfl⟩ := toNodes_cons_eq_ok hnodes
    exact List.forall_mem_cons.2 ⟨he n hn, ih hes hrest⟩

/-- The texts of a tree that was read have the property that stripping gives to the texts of its
element. -/
theorem toNode_spelled {P Q : String → Prop}
    (hQ : ∀ text : Option String, (∀ t ∈ text, P t) → Q (Text.stripped (text.getD "")))
    {e : Element} (h : e.EachText P) {n : Node} (hn : e.toNode = .ok n) : n.Spelled Q := by
  induction h generalizing n with
  | @mk e htext _ ih =>
    obtain ⟨kind, nodes, hkind, hnodes, hn⟩ := toNode_eq_ok hn
    have hrow := toNodes_spelled (fun c hc n => ih c hc) hnodes
    exact assemble_spelled (ne_bare_of_kindOfTag hkind) (hQ e.text htext) hrow hn

theorem isTag_tag (kind : Kind) (h : kind ≠ .row .bare) : IsTag kind.tag := by
  have hall : ∀ kind ∈ Kind.all, Markup.isName .usual kind.tag.toList = true := by decide +kernel
  exact hall kind (mem_kinds h)

/-- The element is the element of the tree, and gives back the tree when it is read, with what was
done to its texts. -/
structure Stands (P : String → Prop) (n : Node) (e : Element) : Prop where
  ofNode : ofNode? n = some e
  spelled : e.Spelled P
  toNode : ∀ f, (e.mapText f).toNode =
    .ok (n.mapTexts fun text => Text.stripped ((f (some text)).getD ""))

theorem exists_stands_row {P : String → Prop} {items : List Node}
    (h : ∀ n ∈ items, ∃ e, Stands P n e) : ∃ es, ofNodes? items = some es ∧
      (∀ e ∈ es, e.Spelled P) ∧ ∀ f, toNodes (mapTextRow f es) =
        .ok (Node.mapTextsRow (fun text => Text.stripped ((f (some text)).getD "")) items) := by
  induction items with
  | nil => exact ⟨[], by rw [ofNodes?], by simp, fun f => by rw [mapTextRow, toNodes, Node.mapTextsRow]⟩
  | cons n rest ih =>
    obtain ⟨⟨e, he⟩, hrest⟩ := List.forall_mem_cons.1 h
    obtain ⟨es, hes, hspelled, htoNodes⟩ := ih hrest
    refine ⟨e :: es, ?_, List.forall_mem_cons.2 ⟨he.spelled, hspelled⟩, fun f => ?_⟩
    · rw [ofNodes?, he.ofNode, hes]
    · rw [mapTextRow, toNodes, he.toNode, htoNodes, Node.mapTextsRow]

end Element

open Element in
/-- **A tree has an element, and the element has the tree**, less the white space at the ends of its
texts. -/
theorem Node.Spelled.stands {P : String → Prop} {n : Node} (h : n.Spelled P) :
    ∃ e, Stands P n e := by
  induction h with
  | @leaf kind text h =>
    have hkind : Kind.leaf kind ≠ .row .bare := by simp
    have htag : kindOfTag kind.tag = .ok (.leaf kind) := kindOfTag_tag (.leaf kind) hkind
    have hname : Markup.IsTag kind.tag := isTag_tag (.leaf kind) hkind
    refine ⟨{ tag := kind.tag, text := some text }, by rw [ofNode?],
      .mk hname (by simpa using h) (by simp), fun f => ?_⟩
    rw [mapText, mapTextRow, Element.toNode, htag, toNodes, Node.mapTexts]
    rfl
  | @row kind items hbare _ ih =>
    have hkind : Kind.row kind ≠ .row .bare := by simpa using hbare
    have htag : kindOfTag kind.tag = .ok (.row kind) := kindOfTag_tag (.row kind) hkind
    have hname : Markup.IsTag kind.tag := isTag_tag (.row kind) hkind
    obtain ⟨es, hes, hspelled, htoNodes⟩ := exists_stands_row ih
    refine ⟨{ tag := kind.tag, children := es }, by rw [ofNode?, hes]; rfl,
      .mk hname (by simp) hspelled, fun f => ?_⟩
    rw [mapText, Element.toNode, htag, htoNodes, Node.mapTexts]
    rfl
  | @unary kind content _ ih =>
    have hkind : Kind.unary kind ≠ .row .bare := by simp
    have htag : kindOfTag kind.tag = .ok (.unary kind) := kindOfTag_tag (.unary kind) hkind
    have hname : Markup.IsTag kind.tag := isTag_tag (.unary kind) hkind
    obtain ⟨e, he⟩ := ih
    refine ⟨{ tag := kind.tag, children := [e] }, by rw [ofNode?, he.ofNode]; rfl,
      .mk hname (by simp) (by simpa using he.spelled), fun f => ?_⟩
    rw [mapText, mapTextRow, mapTextRow, Element.toNode, htag, toNodes, he.toNode, toNodes,
      Node.mapTexts]
    rfl
  | @binary kind left right _ _ ihl ihr =>
    have hkind : Kind.binary kind ≠ .row .bare := by simp
    have htag : kindOfTag kind.tag = .ok (.binary kind) := kindOfTag_tag (.binary kind) hkind
    have hname : Markup.IsTag kind.tag := isTag_tag (.binary kind) hkind
    obtain ⟨l, hl⟩ := ihl
    obtain ⟨r, hr⟩ := ihr
    refine ⟨{ tag := kind.tag, children := [l, r] }, by rw [ofNode?, hl.ofNode, hr.ofNode],
      .mk hname (by simp) (by simpa using ⟨hl.spelled, hr.spelled⟩), fun f => ?_⟩
    rw [mapText, mapTextRow, mapTextRow, mapTextRow, Element.toNode, htag, toNodes, hl.toNode,
      toNodes, hr.toNode, toNodes, Node.mapTexts]
    rfl

end Formulary
