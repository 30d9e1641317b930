import Formulary.Proofs.Markup.Texts
import Mathlib.Logic.Relation

/-!
# Why an element is no tree

Reading walks through an element in document order.  It looks a tag up when it enters an element, and
counts the children when it leaves it, so of several faults it reports the first on this walk
(`toNode_faults`).  An element without faults is one of whose parts every tag has a kind and every
number of children fits it.
-/

namespace Formulary

/-- The number of children that an element of the kind must have, if it is fixed. -/
def Kind.arity : Kind → Option Nat
  | .leaf _ => some 0
  | .row _ => none
  | .unary _ => some 1
  | .binary _ => some 2

/-! ## 1. Parts of an element -/

-- what is reached is the end itself, or comes to it through the last step
theorem forall_reflTransGen {α : Type} {r : α → α → Prop} {P : α → Prop} {a : α} :
    (∀ b, Relation.ReflTransGen r b a → P b) ↔
      P a ∧ ∀ c, r c a → ∀ b, Relation.ReflTransGen r b c → P b := by
  constructor
  · intro h
    exact ⟨h a .refl, fun c hc b hb => h b (hb.tail hc)⟩
  · rintro ⟨hself, hbelow⟩ b hb
    rcases Relation.ReflTransGen.cases_tail hb with rfl | ⟨c, hb, hc⟩
    · exact hself
    · exact hbelow c hc b hb

namespace Element

/-- The first element is the second, or stands below it. -/
def IsPart (m e : Element) : Prop :=
  Relation.ReflTransGen (fun child parent => child ∈ parent.children) m e

theorem forall_isPart {P : Element → Prop} {tag : String} {attributes : List (String × String)}
    {text : Option String} {children : List Element} {tail : Option String} :
    (∀ m, IsPart m ⟨tag, attributes, text, children, tail⟩ → P m) ↔
      P ⟨tag, attributes, text, children, tail⟩ ∧ ∀ e ∈ children, ∀ m, IsPart m e → P m :=
  forall_reflTransGen

/-! ## 2. The walk -/

/-- A moment of a walk: an element is entered, or it is left. -/
inductive Moment where
  | enter (e : Element)
  | leave (e : Element)

mutual

/-- The walk through an element, depth first and in document order. -/
def walk : Element → List Moment
  | e@{ children, .. } => .enter e :: walkRow children ++ [.leave e]

/-- The walk through a row of elements. -/
def walkRow : List Element → List Moment
  | [] => []
  | e :: rest => walk e ++ walkRow rest

end

theorem forall_mem_walkRow {P : Moment → Prop} {es : List Element} :
    (∀ x ∈ walkRow es, P x) ↔ ∀ e ∈ es, ∀ x ∈ walk e, P x := by
  induction es with
  | nil => simp [walkRow]
  | cons e rest ih => rw [walkRow, List.forall_mem_append, List.forall_mem_cons, ih]

/-- On the walk every part is entered and left. -/
theorem forall_mem_walk {P : Moment → Prop} {e : Element} :
    (∀ x ∈ e.walk, P x) ↔ ∀ m, IsPart m e → P (.enter m) ∧ P (.leave m) := by
  induction e with
  | mk tag attributes text children tail ih =>
    rw [walk, List.forall_mem_append, List.forall_mem_cons, List.forall_mem_singleton,
      forall_mem_walkRow, forall_isPart, forall₂_congr ih]
    tauto

/-! ## 3. Faults on the walk -/

/-- The kind that is registered for a tag. -/
def kind? (tag : String) : Option Kind :=
  (localName? tag).bind Kind.ofName?

/-- The fault of an element of the kind with the given number of children. -/
def countFault? (kind : Kind) (tag : String) (count : Nat) : Option Fault :=
  kind.arity.bind fun expected =>
    if count = expected then none else some (.childCount tag expected count)

/-- What is wrong with an element at a moment of the walk: on entry its tag, on exit the number of its
children. -/
def Moment.fault? : Moment → Option Fault
  | .enter e => if (kind? e.tag).isSome then none else some (.unknownTag e.tag)
  | .leave e => (kind? e.tag).bind fun kind => countFault? kind e.tag e.children.length

/-- A tag that begins with the brace of a namespace closes it. -/
def ClosesNamespace (tag : String) : Prop :=
  tag.toList.head? = some '\x7b' → '\x7d' ∈ tag.toList

theorem exists_localName? {tag : String} (h : ClosesNamespace tag) :
    ∃ name, localName? tag = some name := by
  unfold localName?
  split
  · next rest hlist =>
    rw [ClosesNamespace, hlist] at h
    have hmem : '\x7d' ∈ rest := by simpa using h rfl
    split
    · next hnil =>
      -- nothing is left only if the closing brace never comes
      have hall := List.dropWhile_eq_nil_iff.1 hnil _ hmem
      exact absurd hall (by decide)
    · exact ⟨_, rfl⟩
  · exact ⟨_, rfl⟩

theorem kindOfTag_eq {tag : String} (h : ClosesNamespace tag) :
    kindOfTag tag = match kind? tag with
      | some kind => .ok kind
      | none => .error (.unknownTag tag) := by
  obtain ⟨name, hname⟩ := exists_localName? h
  cases hkind : Kind.ofName? name with
  | none => simp [kindOfTag, kind?, hname, hkind]
  | some kind => simp [kindOfTag, kind?, hname, hkind]

theorem kind?_eq_some_iff {tag : String} {kind : Kind} :
    kind? tag = some kind ↔ kind ∈ Kind.all ∧ localName? tag = some kind.tag := by
  constructor
  · intro h
    obtain ⟨name, hname, hkind⟩ := Option.bind_eq_some_iff.1 h
    obtain rfl : kind.tag = name := by simpa using List.find?_some hkind
    exact ⟨List.mem_of_find?_eq_some hkind, hname⟩
  · rintro ⟨hmem, hname⟩
    have hall : ∀ kind ∈ Kind.all, Kind.ofName? kind.tag = some kind := by decide
    rw [kind?, hname, Option.bind_some, hall kind hmem]

theorem countFault?_eq_none_iff {kind : Kind} {tag : String} {count : Nat} :
    countFault? kind tag count = none ↔ ∀ expected ∈ kind.arity, count = expected := by
  unfold countFault?
  cases kind.arity <;> simp

-- a part has no fault on its way exactly if its tag is registered and its children fit
theorem faultless_iff {m : Element} :
    Moment.fault? (.enter m) = none ∧ Moment.fault? (.leave m) = none ↔ ∃ kind ∈ Kind.all,
      localName? m.tag = some kind.tag ∧ ∀ expected ∈ kind.arity, m.children.length = expected := by
  simp only [Moment.fault?]
  constructor
  · rintro ⟨henter, hleave⟩
    cases hkind : kind? m.tag with
    | none => simp [hkind] at henter
    | some kind =>
      obtain ⟨hmem, hname⟩ := kind?_eq_some_iff.1 hkind
      rw [hkind, Option.bind_some] at hleave
      exact ⟨kind, hmem, hname, countFault?_eq_none_iff.1 hleave⟩
  · rintro ⟨kind, hmem, hname, hcount⟩
    rw [kind?_eq_some_iff.2 ⟨hmem, hname⟩, Option.bind_some]
    exact ⟨rfl, countFault?_eq_none_iff.2 hcount⟩

/-- A kind makes a node of some children unless their number is a fault. -/
theorem assemble_eq_error_iff {kind : Kind} {tag : String} {text : Option String}
    {nodes : List Node} {fault : Fault} :
    assemble kind tag text nodes = .error fault ↔ countFault? kind tag nodes.length = some fault := by
  cases kind with
  | leaf kind =>
    cases nodes with
    | nil => simp [assemble, countFault?, Kind.arity]
    | cons n rest => simp [assemble, countFault?, Kind.arity]
  | row kind => simp [assemble, countFault?, Kind.arity]
  | unary kind =>
    match nodes with
    | [] | [_] | _ :: _ :: _ => simp [assemble, countFault?, Kind.arity]
  | binary kind =>
    match nodes with
    | [] | [_] | [_, _] | _ :: _ :: _ :: _ => simp [assemble, countFault?, Kind.arity]

theorem length_of_toNodes {es : List Element} {nodes : List Node} (h : toNodes es = .ok nodes) :
    nodes.length = es.length := by
  induction es generalizing nodes with
  | nil => cases h; rfl
  | cons e es ih =>
    obtain ⟨n, rest, -, hrest, rfl⟩ := toNodes_cons_eq_ok h
    rw [List.length_cons, List.length_cons, ih hrest]

-- what has no fault has a result
theorem exists_ok_iff {α : Type} {result : Except Fault α} {found : Option Fault}
    (h : ∀ fault, result = .error fault ↔ found = some fault) :
    (∃ a, result = .ok a) ↔ found = none := by
  cases result with
  | error fault => simp [(h fault).1 rfl]
  | ok a =>
    refine iff_of_true ⟨a, rfl⟩ (Option.eq_none_iff_forall_ne_some.2 fun fault hfound => ?_)
    exact absurd ((h fault).2 hfound) (by simp)

-- a row of elements fails with the first fault among them
theorem toNodes_eq_error_iff {es : List Element}
    (h : ∀ e ∈ es, ∀ fault, e.toNode = .error fault ↔ e.walk.findSome? Moment.fault? = some fault)
    (fault : Fault) :
    toNodes es = .error fault ↔ (walkRow es).findSome? Moment.fault? = some fault := by
  induction es with
  | nil => simp [toNodes, walkRow]
  | cons e rest ih =>
    obtain ⟨he, hrest⟩ := List.forall_mem_cons.1 h
    rw [toNodes, walkRow, List.findSome?_append]
    cases hnode : e.toNode with
    | error first => simp [(he first).1 hnode]
    | ok n =>
      rw [(exists_ok_iff he).1 ⟨n, hnode⟩, Option.none_or, ← ih hrest]
      cases toNodes rest <;> simp

/-- Reading fails with the first fault on the walk. -/
theorem toNode_eq_error_iff {e : Element} (h : ∀ m, IsPart m e → ClosesNamespace m.tag)
    (fault : Fault) :
    e.toNode = .error fault ↔ e.walk.findSome? Moment.fault? = some fault := by
  induction e generalizing fault with
  | mk tag attributes text children tail ih =>
    obtain ⟨htag, hbelow⟩ := forall_isPart.1 h
    have hrow := toNodes_eq_error_iff fun e he => ih e he (hbelow e he)
    have hkindOf : kindOfTag tag = _ := kindOfTag_eq htag
    rw [toNode, hkindOf, walk, List.findSome?_append, List.findSome?_cons]
    cases hkind : kind? tag with
    | none => simp [Moment.fault?, hkind]
    | some kind =>
      have henter : Moment.fault? (.enter ⟨tag, attributes, text, children, tail⟩) = none := by
        simp [Moment.fault?, hkind]
      have hleave : Moment.fault? (.leave ⟨tag, attributes, text, children, tail⟩) =
          countFault? kind tag children.length := by
        simp [Moment.fault?, hkind]
      rw [henter]
      dsimp only
      cases hnodes : toNodes children with
      | error first => simp [(hrow first).1 hnodes]
      | ok nodes =>
        -- no child has a fault, so the count of the children decides
        rw [(exists_ok_iff hrow).1 ⟨nodes, hnodes⟩, Option.none_or, List.findSome?_singleton,
          hleave, ← length_of_toNodes hnodes]
        exact assemble_eq_error_iff

/-- **Which elements are no trees, and why.**  If every tag closes the namespace that it opens, an
element can be read exactly if all its parts have a tag whose local name is registered and as many
children as the kind asks for.  Otherwise the fault is the first on the walk that checks the tag of an
element on entry and the number of its children on exit. -/
theorem toNode_faults {e : Element} (h : ∀ m, IsPart m e → ClosesNamespace m.tag) :
    ((∃ n, e.toNode = .ok n) ↔ ∀ m, IsPart m e → ∃ kind ∈ Kind.all,
      localName? m.tag = some kind.tag ∧ ∀ expected ∈ kind.arity, m.children.length = expected) ∧
    ∀ fault, e.toNode = .error fault ↔ e.walk.findSome? Moment.fault? = some fault := by
  have hfault := toNode_eq_error_iff h
  refine ⟨?_, hfault⟩
  rw [exists_ok_iff hfault, List.findSome?_eq_none_iff, forall_mem_walk]
  exact forall₂_congr fun m _ => faultless_iff

/-- A row with two faults: a leaf that has a child, and behind it a tag that nobody knows. -/
def faultyRow : Element where
  tag := "mrow"
  children := [
    { tag := "\x7burn:m\x7dMI", children := [{ tag := "mo", text := some "+" }] },
    { tag := "mtext" }]

theorem toNode_faults_row : (∀ m, IsPart m faultyRow → ClosesNamespace m.tag) ∧
    (¬∃ n, faultyRow.toNode = .ok n) ∧
    faultyRow.toNode = .error (.childCount "\x7burn:m\x7dMI" 0 1) := by
  have htags : ∀ m, IsPart m faultyRow → ClosesNamespace m.tag := by
    unfold faultyRow
    simp only [forall_isPart, List.forall_mem_cons, List.not_mem_nil, false_implies,
      implies_true, and_true, ClosesNamespace]
    decide
  obtain ⟨hread, hfault⟩ := toNode_faults htags
  have hfirst := (hfault (.childCount "\x7burn:m\x7dMI" 0 1)).2 (by decide +kernel)
  refine ⟨htags, fun hok => ?_, hfirst⟩
  obtain ⟨kind, hmem, hname, -⟩ := (hread.1 hok) { tag := "mtext" }
    (.single (by simp [faultyRow]))
  exact absurd hname (by revert kind; decide +kernel)

end Element

end Formulary
