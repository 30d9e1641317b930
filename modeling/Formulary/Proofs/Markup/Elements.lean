import Formulary.Proofs.Markup.Texts

/-!
# Trees and elements, there and back

Reading the element of a tree gives the tree, less the white space around the texts of its leaves.
The other way, an element that can be read is written with its local name for a tag, no white space
around the text of a leaf, and no other text (`tidied`).  Its attributes and tails are lost
(`plain`), so it comes back in that form exactly if it has none.  The laws together are
`toNode_and_ofNode`.
-/

namespace Formulary

/-! ## 1. The form in which elements are written -/

def Kind.isLeaf : Kind → Bool
  | .leaf _ => true
  | .row _ | .unary _ | .binary _ => false

namespace Element

/-- The tags of the elements that carry a text. -/
def leafTags : List String :=
  ["mi", "mn", "mo", "annotation"]

mutual

/-- The element with local names for tags, with the texts of leaves stripped, or empty where there was
none, and without the texts of other elements. -/
def tidied : Element → Element
  | ⟨tag, attributes, text, children, tail⟩ =>
    let name := (localName? tag).getD tag
    let kept := if leafTags.contains name then some (Text.stripped (text.getD "")) else none
    ⟨name, attributes, kept, tidiedRow children, tail⟩

/-- The same for a row of elements. -/
def tidiedRow : List Element → List Element
  | [] => []
  | e :: rest => tidied e :: tidiedRow rest

end

mutual

/-- The element without the attributes and tails of its parts. -/
def plain : Element → Element
  | { tag, text, children, .. } => { tag, text, children := plainRow children }

/-- The same for a row of elements. -/
def plainRow : List Element → List Element
  | [] => []
  | e :: rest => plain e :: plainRow rest

end

/-- Tidying leaves attributes and tails alone. -/
theorem plain_tidied_eq_self_iff {e : Element} : e.tidied.plain = e.tidied ↔ e.plain = e := by
  have hrow {children : List Element}
      (h : ∀ e ∈ children, e.tidied.plain = e.tidied ↔ e.plain = e) :
      plainRow (tidiedRow children) = tidiedRow children ↔ plainRow children = children := by
    induction children with
    | nil => simp [tidiedRow, plainRow]
    | cons e rest ih =>
      obtain ⟨he, hrest⟩ := List.forall_mem_cons.1 h
      simp only [tidiedRow, plainRow, List.cons.injEq, he, ih hrest]
  induction e with
  | mk tag attributes text children tail ih => simp [tidied, plain, hrow ih]

theorem contains_leafTags : ∀ kind ∈ Kind.all, leafTags.contains kind.tag = kind.isLeaf := by
  decide

/-! ## 2. From an element to its tree and back -/

theorem ofNodes?_cons_eq_some {n : Node} {rest : List Node} {es : List Element}
    (h : ofNodes? (n :: rest) = some es) :
    ∃ e more, ofNode? n = some e ∧ ofNodes? rest = some more ∧ es = e :: more := by
  rw [ofNodes?] at h
  split at h
  · next e more he hmore =>
    cases h
    exact ⟨e, more, he, hmore, rfl⟩
  · cases h

-- the element of the node that a kind makes, from the elements of the nodes it is made of
theorem ofNode?_assemble {kind : Kind} {tag : String} {text : Option String} {nodes : List Node}
    {n : Node} {es : List Element} (h : assemble kind tag text nodes = .ok n)
    (hes : ofNodes? nodes = some es) :
    ofNode? n = some
      { tag := kind.tag
        text := if kind.isLeaf then some (Text.stripped (text.getD "")) else none
        children := es } := by
  unfold assemble at h
  split at h
  · cases h
    cases hes
    rw [ofNode?]
    rfl
  · cases h
  · cases h
    rw [ofNode?, hes]
    rfl
  · cases h
    obtain ⟨e, more, he, hmore, rfl⟩ := ofNodes?_cons_eq_some hes
    cases hmore
    rw [ofNode?, he]
    rfl
  · cases h
  · cases h
    obtain ⟨l, more, hl, hmore, rfl⟩ := ofNodes?_cons_eq_some hes
    obtain ⟨r, none, hr, hnone, rfl⟩ := ofNodes?_cons_eq_some hmore
    cases hnone
    rw [ofNode?, hl, hr]
    rfl
  · cases h

theorem ofNodes?_of_toNodes {es : List Element} {nodes : List Node}
    (h : ∀ e ∈ es, ∀ n, e.toNode = .ok n → ofNode? n = some e.tidied.plain)
    (hnodes : toNodes es = .ok nodes) : ofNodes? nodes = some (plainRow (tidiedRow es)) := by
  induction es generalizing nodes with
  | nil =>
    cases hnodes
    rw [ofNodes?, tidiedRow, plainRow]
  | cons e es ih =>
    obtain ⟨he, hes⟩ := List.forall_mem_cons.1 h
    obtain ⟨n, rest, hn, hrest, rfl⟩ := toNodes_cons_eq_ok hnodes
    rw [ofNodes?, he n hn, ih hes hrest, tidiedRow, plainRow]

/-- What can be read is written in tidy form, without attributes and tails. -/
theorem ofNode?_of_toNode {e : Element} {n : Node} (h : e.toNode = .ok n) :
    ofNode? n = some e.tidied.plain := by
  induction e generalizing n with
  | mk tag attributes text children tail ih =>
    obtain ⟨kind, nodes, hkind, hnodes, hn⟩ := toNode_eq_ok h
    obtain ⟨hname, hmem⟩ := kindOfTag_eq_ok hkind
    have hrow : ofNodes? nodes = some (plainRow (tidiedRow children)) :=
      ofNodes?_of_toNodes (fun e he n => ih e he) hnodes
    rw [ofNode?_assemble hn hrow, tidied, plain, hname, Option.getD_some]
    rw [contains_leafTags kind hmem]

/-! ## 3. From a tree to its element and back -/

theorem mapText_id (e : Element) : e.mapText id = e := by
  have hrow {children : List Element} (h : ∀ e ∈ children, e.mapText id = e) :
      mapTextRow id children = children := by
    induction children with
    | nil => rw [mapTextRow]
    | cons e rest ih =>
      obtain ⟨he, hrest⟩ := List.forall_mem_cons.1 h
      rw [mapTextRow, he, ih hrest]
  induction e with
  | mk tag attributes text children tail ih => rw [mapText, hrow ih, id]

theorem spelled_of_proper {n : Node} (h : Code.Proper n) : n.Spelled fun _ => True := by
  induction h with
  | leaf kind text => exact .leaf kind trivial
  | row hkind _ ih => exact .row hkind ih
  | unary _ ih => exact .unary _ ih
  | binary _ _ ihl ihr => exact .binary _ ihl ihr

/-- What is written can be read. -/
theorem toNode_of_proper {n : Node} (h : Code.Proper n) :
    ∃ e, ofNode? n = some e ∧ e.toNode = .ok (n.mapTexts Text.stripped) := by
  obtain ⟨e, he⟩ := (spelled_of_proper h).stands
  have hread := he.toNode id
  rw [mapText_id] at hread
  exact ⟨e, he.ofNode, hread⟩

/-- **Trees and elements, there and back.**  Every proper tree has an element, which is read as the
tree with the texts of its leaves stripped.  The tree of an element that can be read is written as the
element in tidy form, without attributes and tails; it is the tidy form itself exactly if the element
has neither. -/
theorem toNode_and_ofNode :
    (∀ n : Node, Code.Proper n →
      ∃ e, ofNode? n = some e ∧ e.toNode = .ok (n.mapTexts Text.stripped)) ∧
    ∀ (e : Element) (n : Node), e.toNode = .ok n →
      ofNode? n = some e.tidied.plain ∧ (ofNode? n = some e.tidied ↔ e.plain = e) := by
  constructor
  · intro n h
    exact toNode_of_proper h
  · intro e n h
    have hwritten := ofNode?_of_toNode h
    refine ⟨hwritten, ?_⟩
    rw [hwritten, Option.some.injEq, plain_tidied_eq_self_iff]

/-- A row with a namespace, of a leaf in capitals, a leaf without text, and a quotient.  It has
attributes and texts wherever an element can have them. -/
def looseRow : Element where
  tag := "\x7burn:m\x7dMRow"
  attributes := [("dir", "rtl")]
  text := some "x"
  children := [
    { tag := "MI", attributes := [("mathvariant", "bold")], text := some " a ", tail := some "y" },
    { tag := "mo" },
    { tag := "mfrac"
      children := [
        { tag := "mn", text := some "1\n" },
        { tag := "msqrt", children := [{ tag := "mi", text := some "b" }], tail := some "z" }] }]

theorem toNode_and_ofNode_quotient :
    (∃ e, ofNode? (.sequence [.identifier " a ", .operator ""]) = some e ∧
      e.toNode = .ok (.sequence [.identifier "a", .operator ""])) ∧
    ∃ n, looseRow.toNode = .ok n ∧ ofNode? n = some
      { tag := "mrow"
        children := [
          { tag := "mi", text := some "a" },
          { tag := "mo", text := some "" },
          { tag := "mfrac"
            children := [
              { tag := "mn", text := some "1" },
              { tag := "msqrt", children := [{ tag := "mi", text := some "b" }] }] }] } := by
  have hproper : Code.Proper (.sequence [.identifier " a ", .operator ""]) :=
    .row (by decide) (by simp [Code.Proper.leaf])
  have hread : looseRow.toNode = .ok (.sequence [.identifier "a", .operator "",
      .binary .fraction (.number "1") (.unary .squareRoot (.identifier "b"))]) := by
    rfl
  exact ⟨toNode_and_ofNode.1 _ hproper, _, hread, (toNode_and_ofNode.2 _ _ hread).1⟩

/-- What a style says of a row, and a text between its children. -/
def styledRow : Element where
  tag := "mrow"
  attributes := [("dir", "rtl")]
  children := [
    { tag := "mi", attributes := [("mathvariant", "bold")], text := some "a", tail := some "TAIL" },
    { tag := "mo", text := some "+" }]

/-- The attributes and the tails of an element do not survive. -/
theorem not_ofNode?_tidied :
    ¬∀ (e : Element) (n : Node), e.toNode = .ok n → ofNode? n = some e.tidied := by
  intro hall
  have hread : styledRow.toNode = .ok (.sequence [.identifier "a", .operator "+"]) := by rfl
  have hwritten : ofNode? (.sequence [.identifier "a", .operator "+"]) = some
      { tag := "mrow"
        children := [{ tag := "mi", text := some "a" }, { tag := "mo", text := some "+" }] } := by
    rfl
  have htidy := Option.some.inj (hwritten.symm.trans (hall _ _ hread))
  exact absurd (congrArg attributes htidy) (by simp [styledRow, tidied])

end Element

end Formulary
