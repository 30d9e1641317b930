import Formulary.Proofs.Neighbours
import Formulary.Proofs.Products

/-!
# The code of products written out

Emission writes the `*` of a product by itself, if a value stands before a bracket, a call or a
fraction.  Brackets that stripping has taken out are none of these, so next to them the `*` may be
left out (`unwritten`).  Where a tree has no such place, its code is the code of the tree with its
products written out; where it has one, and no bracket of the formula is empty, the code is shorter
(`emit_explicit`).
-/

namespace Formulary.Code

open Formula

/-! ## 1. Places without a `*` -/

/-- Do the neighbours form a product for which emission writes no `*`? -/
def unwritten (m n : Node) : Bool :=
  endsFactor m && beginsBracket n && !(Context.seenAll false (trail m) && opensFactor n)

mutual

/-- Does emission write the `*` of every product of the tree? -/
def written : Node → Bool
  | .row _ items => writtenRow items
  | .unary _ content => written content
  | .binary _ left right => written left && written right
  | .leaf .. | .bare | .missing | .stray _ => true

/-- Does emission write the `*` of every product of the row? -/
def writtenRow : List Node → Bool
  | [] => true
  | n :: rest => written n && !rest.head?.any (unwritten n) && writtenRow rest

end

/-- The node holds something besides brackets. -/
def HasWord (n : Node) : Prop :=
  ∃ a ∈ reading n, isBracket a = false

/-- A tree without remarks, in which every row holds something besides brackets. -/
inductive Solid : Node → Prop
  | leaf {kind : LeafKind} {text : String} (h : kind ≠ .remark) : Solid (.leaf kind text)
  | row {kind : RowKind} {items : List Node} (h : ∀ n ∈ items, Solid n)
      (hword : HasWord (.row kind items)) : Solid (.row kind items)
  | unary {kind : UnaryKind} {content : Node} (h : Solid content) : Solid (.unary kind content)
  | binary {kind : BinaryKind} {left right : Node} (hl : Solid left) (hr : Solid right) :
      Solid (.binary kind left right)

/-- Does the visit of a node write anything? -/
def isWriting (n : Node) : Bool :=
  (firstWriting? (trail n)).isSome

section

variable {m n : Node} {items rest : List Node}

theorem writtenRow_cons : writtenRow (n :: rest) = true ↔
    written n = true ∧ rest.head?.any (unwritten n) = false ∧ writtenRow rest = true := by
  rw [writtenRow]
  simp [and_assoc]

theorem written_binary {kind : BinaryKind} {left right : Node} :
    written (.binary kind left right) = true ↔ written left = true ∧ written right = true := by
  rw [written, Bool.and_eq_true_iff]

theorem Solid.isWriting (h : Solid n) (hproper : Proper n) : isWriting n = true := by
  induction h with
  | @leaf kind text h =>
    cases kind with
    | remark => exact absurd rfl h
    | _ => rfl
  | @row kind items _ hword ih =>
    obtain ⟨a, ha, -⟩ := hword
    cases hproper with
    | row hkind hitems =>
      cases items with
      | nil => exact absurd ha (by simp)
      | cons first more =>
        have hfirst := ih first List.mem_cons_self (hitems first List.mem_cons_self)
        rw [Code.isWriting, trail, firstWriting?_row hkind, trailRow, firstWriting?_append,
          Option.isSome_or]
        rw [Code.isWriting] at hfirst
        rw [hfirst, Bool.true_or]
  | unary => rfl
  | @binary kind => cases kind <;> rfl

-- a visit that writes leaves a flag of its own behind
theorem seenAll_trail (h : isWriting n = true) (after : Bool) :
    Context.seenAll after (trail n) = Context.seenAll false (trail n) := by
  obtain ⟨first, hfirst⟩ := Option.isSome_iff_exists.1 h
  exact seenAll_of_firstWriting?_some hfirst after

theorem isWriting_of_seenAll (h : Context.seenAll false (trail n) = true) : isWriting n = true := by
  cases hfirst : firstWriting? (trail n) with
  | none =>
    rw [seenAll_of_firstWriting?_none hfirst] at h
    exact absurd h (by decide)
  | some first => rw [isWriting, hfirst]; rfl

theorem isWriting_of_opensFactor (h : opensFactor n = true) (hproper : Proper n) :
    isWriting n = true := by
  rw [isWriting, firstWriting?_trail hproper]
  exact Option.isSome_of_any h

end

/-! ## 2. Texts that grow -/

/-- The second text is the first one if the condition holds, and longer if it does not. -/
structure LongerUnless (p : Prop) (s t : String) : Prop where
  same : p → t = s
  longer : ¬p → s.length < t.length

namespace LongerUnless

variable {p q : Prop} {s s' t t' : String}

theorem iff (h : LongerUnless p s t) : t = s ↔ p := by
  refine ⟨fun heq => ?_, h.same⟩
  by_contra hp
  have := h.longer hp
  rw [heq] at this
  exact Nat.lt_irrefl _ this

theorem le (h : LongerUnless p s t) : s.length ≤ t.length := by
  by_cases hp : p
  · rw [h.same hp]
  · exact Nat.le_of_lt (h.longer hp)

theorem congr (h : LongerUnless p s t) (hpq : p ↔ q) : LongerUnless q s t :=
  ⟨fun hq => h.same (hpq.2 hq), fun hq => h.longer fun hp => hq (hpq.1 hp)⟩

theorem refl (s : String) : LongerUnless True s s :=
  ⟨fun _ => rfl, fun h => absurd trivial h⟩

theorem append (h : LongerUnless p s t) (h' : LongerUnless q s' t') :
    LongerUnless (p ∧ q) (s ++ s') (t ++ t') := by
  refine ⟨fun ⟨hp, hq⟩ => by rw [h.same hp, h'.same hq], fun hpq => ?_⟩
  rw [String.length_append, String.length_append]
  have hle := h.le
  have hle' := h'.le
  by_cases hp : p
  · have := h'.longer fun hq => hpq ⟨hp, hq⟩
    omega
  · have := h.longer hp
    omega

theorem after (h : LongerUnless p s t) (u : String) : LongerUnless p (u ++ s) (u ++ t) :=
  ((refl u).append h).congr (iff_of_eq (true_and _))

theorem before (h : LongerUnless p s t) (u : String) : LongerUnless p (s ++ u) (t ++ u) :=
  (h.append (refl u)).congr (iff_of_eq (and_true _))

end LongerUnless

theorem longerUnless_star (b : Bool) : LongerUnless (b = true) (star b) "*" := by
  refine ⟨?_, ?_⟩
  · rintro rfl
    rfl
  · intro hb
    rw [Bool.of_not_eq_true hb]
    decide

/-! ## 3. Where a `*` is put -/

/-- Either no `*` is left out in the tree, or the tree is solid. -/
def Ready (n : Node) : Prop :=
  written n = true ∨ Solid n

/-- Either no `*` is left out in the row, or all of its nodes are solid. -/
def ReadyRow (items : List Node) : Prop :=
  writtenRow items = true ∨ ∀ n ∈ items, Solid n

section

variable {m n : Node} {items rest : List Node}

theorem Ready.row {kind : RowKind} (h : Ready (.row kind items)) : ReadyRow items := by
  rcases h with hw | hs
  · rw [written] at hw
    exact .inl hw
  · cases hs with
    | row hs _ => exact .inr hs

theorem Ready.content {kind : UnaryKind} (h : Ready (.unary kind n)) : Ready n := by
  rcases h with hw | hs
  · rw [written] at hw
    exact .inl hw
  · cases hs with
    | unary hs => exact .inr hs

theorem Ready.operands {kind : BinaryKind} (h : Ready (.binary kind m n)) : Ready m ∧ Ready n := by
  rcases h with hw | hs
  · obtain ⟨hm, hn⟩ := written_binary.1 hw
    exact ⟨.inl hm, .inl hn⟩
  · cases hs with
    | binary hm hn => exact ⟨.inr hm, .inr hn⟩

theorem ReadyRow.cons (h : ReadyRow (n :: rest)) : Ready n ∧ ReadyRow rest ∧
    ∀ x ∈ rest.head?, unwritten n x = false ∨ Solid n ∧ Solid x := by
  rcases h with h | h
  · obtain ⟨hn, hplace, hrest⟩ := writtenRow_cons.1 h
    refine ⟨.inl hn, .inl hrest, fun x hx => .inl ?_⟩
    rw [hx] at hplace
    exact hplace
  · obtain ⟨hn, hrest⟩ := List.forall_mem_cons.1 h
    exact ⟨.inr hn, .inr hrest, fun x hx => .inr ⟨hn, hrest x (List.mem_of_mem_head? hx)⟩⟩

-- between two nodes that both write
theorem isWriting_of_place (hm : Proper m) (hn : Proper n)
    (h : unwritten m n = false ∨ Solid m ∧ Solid n) (hplace : (endsFactor m && beginsBracket n) = true) :
    isWriting m = true ∧ isWriting n = true := by
  rcases h with hwritten | ⟨hsm, hsn⟩
  · rw [unwritten, hplace, Bool.true_and, Bool.not_eq_false', Bool.and_eq_true_iff] at hwritten
    exact ⟨isWriting_of_seenAll hwritten.1, isWriting_of_opensFactor hwritten.2 hn⟩
  · exact ⟨hsm.isWriting hm, hsn.isWriting hn⟩

theorem timesBetween_cases (n : Node) (rest : List Node) :
    (timesBetween (some n) rest.head? = [] ∧ rest.head?.any (unwritten n) = false) ∨
      ∃ x more, rest = x :: more ∧ (endsFactor n && beginsBracket x) = true ∧
        timesBetween (some n) rest.head? = [.operator "*"] := by
  cases rest with
  | nil => exact .inl ⟨timesBetween_none_right _, rfl⟩
  | cons x more =>
    by_cases hplace : (endsFactor n && beginsBracket x) = true
    · exact .inr ⟨x, more, rfl, hplace, if_pos hplace⟩
    · refine .inl ⟨if_neg hplace, ?_⟩
      rw [List.head?_cons, Option.any_some, unwritten, Bool.of_not_eq_true hplace, Bool.false_and]

end

/-! ## 4. The flag after a tree -/

theorem isAtomic_multiplied (n : Node) : isAtomic (multiplied n) = isAtomic n := by
  induction n with
  | row kind items ih =>
    rw [multiplied]
    rcases items with _ | ⟨x, _ | ⟨y, rest⟩⟩
    · rw [multipliedRow_nil]
    · rw [multipliedRow_singleton, isAtomic, isAtomic]
      exact ih x (by simp)
    · have htwo : ∃ z z' more, multipliedRow (x :: y :: rest) = z :: z' :: more := by
        rcases timesBetween_cases x (y :: rest) with ⟨hnone, -⟩ | ⟨_, _, -, -, htimes⟩
        · rw [multipliedRow_cons, hnone, multipliedRow_cons]
          exact ⟨_, _, _, rfl⟩
        · rw [multipliedRow_cons, htimes]
          exact ⟨_, _, _, rfl⟩
      obtain ⟨z, z', more, heq⟩ := htwo
      cases kind with
      | sequence =>
        have hpair := hasBracketPair_multipliedRow (x :: y :: rest)
        rw [heq] at hpair ⊢
        rw [isAtomic, isAtomic, hpair]
        all_goals simp
      | _ =>
        rw [heq]
        simp [isAtomic]
  | binary kind => cases kind <;> simp [multiplied, isAtomic]
  | leaf kind => rw [multiplied]
  | _ => simp [multiplied, isAtomic]

theorem isBracketed_multiplied (n : Node) : (multiplied n).isBracketed = n.isBracketed := by
  cases n with
  | row kind items =>
    rw [multiplied]
    cases kind with
    | sequence => exact hasBracketPair_multipliedRow items
    | _ => rfl
  | _ => simp [multiplied, Node.isBracketed]

section

variable {m n : Node} {items rest : List Node}

theorem seenAll_multipliedRow (hproper : ∀ x ∈ items, Proper x) (hready : ReadyRow items)
    (h : ∀ x ∈ items, Ready x → ∀ after,
      Context.seenAll after (trail (multiplied x)) = Context.seenAll after (trail x))
    (after : Bool) : Context.seenAll after (trailRow (multipliedRow items)) =
      Context.seenAll after (trailRow items) := by
  induction items generalizing after with
  | nil => rw [multipliedRow_nil]
  | cons n rest ih =>
    obtain ⟨hpn, hprest⟩ := List.forall_mem_cons.1 hproper
    obtain ⟨hn, hrest⟩ := List.forall_mem_cons.1 h
    obtain ⟨hrn, hrrest, hplaces⟩ := hready.cons
    have hmore := ih hprest hrrest hrest
    rcases timesBetween_cases n rest with ⟨hnone, -⟩ | ⟨x, more, rfl, hplace, htimes⟩
    · rw [multipliedRow_cons, hnone, List.nil_append, trailRow, trailRow, Context.seenAll_append,
        Context.seenAll_append, hn hrn, hmore]
    · -- what is written behind the `*` sets the flag anew
      obtain ⟨-, hx⟩ := isWriting_of_place hpn (hprest x List.mem_cons_self) (hplaces x rfl) hplace
      rw [multipliedRow_cons, htimes, List.singleton_append, trailRow, trailRow, trailRow, trail,
        Context.seenAll_append, Context.seenAll_append, Context.seenAll_append, hmore, trailRow,
        Context.seenAll_append, Context.seenAll_append,
        seenAll_trail hx (Context.seenAll after (trail n))]
      rfl

/-- The flag after a tree is that after the tree with its products written out. -/
theorem seenAll_multiplied (hproper : Proper n) (h : Ready n) (after : Bool) :
    Context.seenAll after (trail (multiplied n)) = Context.seenAll after (trail n) := by
  induction hproper generalizing after with
  | leaf kind text => rw [multiplied]
  | @row kind items hkind hitems ih =>
    rw [multiplied, trail, trail, Context.seenAll_cons, Context.seenAll_cons, Context.seen_row _ hkind,
      Context.seen_row _ hkind]
    exact seenAll_multipliedRow hitems h.row (fun x hx hrx after => ih x hx hrx after) after
  | @unary kind content _ ih =>
    rw [multiplied, trail, trail, Context.seenAll_cons, Context.seenAll_cons, Context.seen_unary,
      Context.seen_unary]
    exact ih h.content false
  | @binary kind left right _ _ _ ihr =>
    have hends := ihr h.operands.2 false
    rw [multiplied]
    cases kind with
    | power => simpa [trail] using hends
    | fraction => simp [trail, Context.seenAll_operandTrail, isAtomic_multiplied, hends]

end

/-! ## 5. The text of a tree -/

section

variable {o : Options} {m n : Node} {items rest : List Node}

-- a node that writes decides alone whether a `*` stands before the row
theorem printedRow_cons_eq_star (hproper : ∀ x ∈ n :: rest, Proper x) (hn : isWriting n = true)
    (after : Bool) : printedRow o (asCall o) after (n :: rest) =
      star (after && opensFactor n) ++ printedRow o (asCall o) false (n :: rest) := by
  obtain ⟨hpn, -⟩ := List.forall_mem_cons.1 hproper
  rw [printedRow, printedRow, printed_eq_star hpn, seenAll_trail hn after, String.append_assoc]

theorem longerUnless_printedRow (hproper : ∀ x ∈ items, Proper x) (hready : ReadyRow items)
    (h : ∀ x ∈ items, Ready x → ∀ after, LongerUnless (written x = true)
      (printed o (asCall o) after x) (printed o (asCall o) after (multiplied x)))
    (after : Bool) : LongerUnless (writtenRow items = true) (printedRow o (asCall o) after items)
      (printedRow o (asCall o) after (multipliedRow items)) := by
  induction items generalizing after with
  | nil =>
    rw [multipliedRow_nil]
    exact (LongerUnless.refl _).congr (by simp [writtenRow])
  | cons n rest ih =>
    obtain ⟨hpn, hprest⟩ := List.forall_mem_cons.1 hproper
    obtain ⟨hn, hrest⟩ := List.forall_mem_cons.1 h
    obtain ⟨hrn, hrrest, hplaces⟩ := hready.cons
    have hmore := ih hprest hrrest hrest
    rcases timesBetween_cases n rest with ⟨hnone, hplace⟩ | ⟨x, more, rfl, hplace, htimes⟩
    · rw [multipliedRow_cons, hnone, List.nil_append, printedRow, printedRow,
        seenAll_multiplied hpn hrn]
      refine ((hn hrn after).append (hmore _)).congr ?_
      rw [writtenRow_cons, hplace]
      simp
    · -- the `*` that is put in against the one that emission writes
      obtain ⟨hwn, hwx⟩ := isWriting_of_place hpn (hprest x List.mem_cons_self) (hplaces x rfl) hplace
      have htext : printedRow o (asCall o) after (multipliedRow (n :: x :: more)) =
          printed o (asCall o) after (multiplied n) ++
            ("*" ++ printedRow o (asCall o) false (multipliedRow (x :: more))) := by
        rw [multipliedRow_cons, htimes, List.singleton_append, printedRow, printedRow]
        simp [printed, trail, star, codeSymbol]
      rw [htext, printedRow, printedRow_cons_eq_star hprest hwx, seenAll_trail hwn]
      refine ((hn hrn after).append ((longerUnless_star _).append (hmore false))).congr ?_
      rw [writtenRow_cons (n := n), List.head?_cons, Option.any_some, unwritten, hplace, Bool.true_and,
        Bool.not_eq_false']

theorem longerUnless_operandText {p : Prop} {s t : String} (h : LongerUnless p s t)
    (hatomic : isAtomic m = isAtomic n) : LongerUnless p (operandText n s) (operandText m t) := by
  unfold operandText
  rw [hatomic]
  split
  · exact h
  · exact (h.after "(").before ")"

theorem longerUnless_contentText {p : Prop} {s t : String} (h : LongerUnless p s t)
    (hbracketed : m.isBracketed = n.isBracketed) :
    LongerUnless p (contentText n s) (contentText m t) := by
  unfold contentText
  rw [hbracketed]
  split
  · exact h
  · exact (h.after "(").before ")"

/-- With its products written out a tree prints the same text if no `*` is left out, and a longer one
otherwise. -/
theorem longerUnless_printed (hproper : Proper n) (h : Ready n) (after : Bool) :
    LongerUnless (written n = true) (printed o (asCall o) after n)
      (printed o (asCall o) after (multiplied n)) := by
  induction hproper generalizing after with
  | leaf kind text =>
    rw [multiplied]
    exact (LongerUnless.refl _).congr (by simp [written])
  | @row kind items hkind hitems ih =>
    rw [multiplied, printed, printed, written]
    exact longerUnless_printedRow hitems h.row (fun x hx hrx after => ih x hx hrx after) after
  | @unary kind content _ ih =>
    have hcontent := ih h.content false
    rw [multiplied, written]
    cases kind with
    | fenced =>
      rw [printed, printed]
      exact ((hcontent.after "(").before ")").after _
    | squareRoot =>
      rw [printed, printed]
      exact ((longerUnless_contentText hcontent (isBracketed_multiplied content)).after _).after _
  | @binary kind left right _ _ ihl ihr =>
    have hleft := ihl h.operands.1 false
    have hright := ihr h.operands.2 false
    rw [multiplied]
    cases kind with
    | power =>
      rw [printed, printed, asCall, asCall]
      refine LongerUnless.after ?_ _
      exact (((((hleft.after _).before _).append hright)).before _).congr written_binary.symm
    | fraction =>
      rw [printed, printed]
      refine LongerUnless.after ?_ _
      exact (((longerUnless_operandText hleft (isAtomic_multiplied left)).before _).append
        (longerUnless_operandText hright (isAtomic_multiplied right))).congr written_binary.symm

end

/-! ## 6. The code of a root -/

section

variable {o : Options} {n : Node} {items : List Node}

-- a `*` is no name and divides by nothing
theorem flatMap_multipliedRow {α : Type} {f g : Node → List α} (htimes : f (.operator "*") = [])
    (h : ∀ x ∈ items, f (multiplied x) = g x) : (multipliedRow items).flatMap f = items.flatMap g := by
  induction items with
  | nil => rw [multipliedRow_nil, List.flatMap_nil, List.flatMap_nil]
  | cons n rest ih =>
    obtain ⟨hn, hrest⟩ := List.forall_mem_cons.1 h
    have hnone : (timesBetween (some n) rest.head?).flatMap f = [] := by
      rw [List.flatMap_eq_nil_iff]
      intro x hx
      rw [mem_timesBetween hx, htimes]
    rw [multipliedRow_cons, List.flatMap_cons, List.flatMap_append, hnone, List.nil_append, hn,
      ih hrest, List.flatMap_cons]

theorem usedNames_multiplied (n : Node) : usedNames (multiplied n) = usedNames n := by
  induction n with
  | row kind items ih =>
    rw [multiplied, usedNames_row, usedNames_row]
    exact flatMap_multipliedRow rfl ih
  | unary kind content ih => rw [multiplied, usedNames_unary, usedNames_unary, ih]
  | binary kind left right ihl ihr =>
    rw [multiplied, usedNames_binary, usedNames_binary, ihl, ihr]
  | leaf | bare | missing | stray => rw [multiplied]

theorem denominators_multiplied (n : Node) :
    denominators (multiplied n) = (denominators n).map multiplied := by
  induction n with
  | row kind items ih =>
    rw [multiplied, denominators_row, denominators_row, List.map_flatMap]
    exact flatMap_multipliedRow rfl ih
  | unary kind content ih => rw [multiplied, denominators_unary, denominators_unary, ih]
  | binary kind left right ihl ihr =>
    rw [multiplied]
    cases kind with
    | power => rw [denominators_power, denominators_power, ihl, ihr, List.map_append]
    | fraction =>
      rw [denominators_fraction, denominators_fraction, ihl, ihr, List.map_cons, List.map_append]
  | leaf => rw [multiplied, denominators_leaf, List.map_nil]
  | bare | missing | stray => rw [multiplied]; rfl

theorem writtenRow_of_mem (h : writtenRow items = true) : ∀ x ∈ items, written x = true := by
  induction items with
  | nil => simp
  | cons n rest ih =>
    obtain ⟨hn, -, hrest⟩ := writtenRow_cons.1 h
    exact List.forall_mem_cons.2 ⟨hn, ih hrest⟩

/-- What holds of a tree and passes to the children of nodes holds of all denominators. -/
theorem forall_mem_denominators {P : Node → Prop}
    (hrow : ∀ {kind items}, P (.row kind items) → ∀ x ∈ items, P x)
    (hcontent : ∀ {kind content}, P (.unary kind content) → P content)
    (hoperands : ∀ {kind left right}, P (.binary kind left right) → P left ∧ P right)
    (h : P n) : ∀ x ∈ denominators n, P x := by
  induction n with
  | row kind items ih =>
    rw [denominators_row]
    intro x hx
    obtain ⟨n, hn, hx⟩ := List.mem_flatMap.1 hx
    exact ih n hn (hrow h n hn) x hx
  | unary kind content ih =>
    rw [denominators_unary]
    exact ih (hcontent h)
  | binary kind left right ihl ihr =>
    obtain ⟨hl, hr⟩ := hoperands h
    have hboth : ∀ x ∈ denominators left ++ denominators right, P x := by
      intro x hx
      exact (List.mem_append.1 hx).elim (ihl hl x) (ihr hr x)
    cases kind with
    | power =>
      rw [denominators_power]
      exact hboth
    | fraction =>
      rw [denominators_fraction]
      exact List.forall_mem_cons.2 ⟨hr, hboth⟩
  | leaf => rw [denominators_leaf]; simp
  | bare | missing | stray => simp [denominators, Node.preorder, denominator?]

theorem written_of_mem_denominators (h : written n = true) :
    ∀ x ∈ denominators n, written x = true := by
  refine forall_mem_denominators (P := fun x => written x = true) ?_ ?_ written_binary.1 h
  · intro kind items h
    rw [written] at h
    exact writtenRow_of_mem h
  · intro kind content h
    rwa [written] at h

theorem ReadyRow.of_mem (h : ReadyRow items) : ∀ x ∈ items, Ready x := by
  intro x hx
  exact h.imp (fun hw => writtenRow_of_mem hw x hx) fun hs => hs x hx

theorem Ready.of_mem_denominators (h : Ready n) : ∀ x ∈ denominators n, Ready x :=
  forall_mem_denominators (fun h => h.row.of_mem) Ready.content Ready.operands h

theorem LongerUnless.assertion {p : Prop} {s t : String} (h : LongerUnless p s t) :
    LongerUnless p (assertion s) (assertion t) := by
  unfold Code.assertion
  exact ((((h.after _).before _).append h).before _).congr and_self_iff

theorem longerUnless_lines {f g : Node → String} {nodes : List Node}
    (h : ∀ x ∈ nodes, LongerUnless (written x = true) (f x) (g x)) :
    LongerUnless (∀ x ∈ nodes, written x = true) (lines f nodes) (lines g nodes) := by
  induction nodes with
  | nil => exact (LongerUnless.refl "").congr (by simp)
  | cons n rest ih =>
    obtain ⟨hn, hrest⟩ := List.forall_mem_cons.1 h
    rw [lines, lines, List.map_cons, List.map_cons, String.join_cons, String.join_cons]
    exact ((hn.before "\n").append (ih hrest)).congr (by simp)

/-- The assertions grow with the denominators in them. -/
theorem longerUnless_guardLines {nodes : List Node} (hproper : ∀ x ∈ nodes, Proper x)
    (h : ∀ x ∈ nodes, Ready x) :
    LongerUnless (o.assertDivisions = true → ∀ x ∈ nodes, written x = true)
      (guardLines o nodes) (guardLines o (nodes.map multiplied)) := by
  unfold guardLines
  split
  · next hassert =>
    have hlines := longerUnless_lines fun x hx =>
      (longerUnless_printed (o := o) (hproper x hx) (h x hx) false).assertion
    have hmap : lines (fun n => Code.assertion (printed o (asCall o) false n)) (nodes.map multiplied) =
        lines (fun n => Code.assertion (printed o (asCall o) false (multiplied n))) nodes := by
      rw [lines, lines, List.map_map]
      rfl
    rw [hmap]
    exact hlines.congr (by simp [hassert])
  · next hassert => exact (LongerUnless.refl "").congr (by simp [hassert])

theorem LongerUnless.statementOf {p : Prop} {s t : String} (h : LongerUnless p s t) :
    LongerUnless p (statementOf s) (statementOf t) := by
  refine ⟨fun hp => by rw [h.same hp], fun hp => ?_⟩
  have hlonger := h.longer hp
  have hne : t ≠ "" := by
    rintro rfl
    exact absurd hlonger (by simp)
  rw [Code.statementOf, Code.statementOf, if_neg hne, String.length_append]
  split
  · rw [String.length_empty]
    omega
  · rw [String.length_append]
    omega

theorem printable_multiplied (h : Proper n) (hroot : Rootless n) : Printable (multiplied n) := by
  induction h with
  | leaf kind text =>
    rw [multiplied]
    exact printable_leaf kind text
  | @row kind items hkind _ ih =>
    have hitems := forall_mem_multipliedRow (printable_leaf .operator "*")
      fun x hx => ih x hx (hroot.of_mem hx)
    have hkind' : kind ≠ .root := by
      rintro rfl
      exact hroot items (by simp [Node.preorder])
    rw [multiplied]
    exact ⟨.row hkind fun x hx => (hitems x hx).1, rootless_row hkind' fun x hx => (hitems x hx).2⟩
  | unary _ ih =>
    have hcontent := ih hroot.content
    rw [multiplied]
    exact ⟨.unary hcontent.1, rootless_unary hcontent.2⟩
  | binary _ _ ihl ihr =>
    have hleft := ihl hroot.operands.1
    have hright := ihr hroot.operands.2
    rw [multiplied]
    exact ⟨.binary hleft.1 hright.1, rootless_binary hleft.2 hright.2⟩

/-- The code of a root is the same with its products written out if no `*` is left out; in solid trees
it is longer otherwise. -/
theorem emit_root_multiplied (h : ∀ x ∈ items, Printable x) (o : Options) :
    ∃ s t, emit o (.root items) = .ok s ∧ emit o (multiplied (.root items)) = .ok t ∧
      (ReadyRow items → LongerUnless (writtenRow items = true) s t) := by
  have hcode (nodes : List Node) (hnodes : ∀ x ∈ nodes, Printable x) := emitIn_root hnodes o []
  have hroot : multiplied (.root items) = .root (multipliedRow items) := by rw [multiplied]
  have hmultiplied : ∀ x ∈ multipliedRow items, Printable x :=
    forall_mem_multipliedRow (printable_leaf .operator "*")
      fun x hx => printable_multiplied (h x hx).1 (h x hx).2
  have hnames : (multipliedRow items).flatMap usedNames = items.flatMap usedNames :=
    flatMap_multipliedRow rfl fun x _ => usedNames_multiplied x
  have hdivisions : (multipliedRow items).flatMap denominators =
      (items.flatMap denominators).map multiplied := by
    rw [List.map_flatMap]
    exact flatMap_multipliedRow rfl fun x _ => denominators_multiplied x
  refine ⟨_, _, hcode items h, hroot ▸ hcode _ hmultiplied, fun hready => ?_⟩
  have hguards : LongerUnless
      (o.assertDivisions = true → ∀ x ∈ items.flatMap denominators, written x = true)
      (guardLines o (items.flatMap denominators))
      (guardLines o ((items.flatMap denominators).map multiplied)) := by
    refine longerUnless_guardLines (fun x hx => ?_) fun x hx => ?_
    · obtain ⟨n, hn, hx⟩ := List.mem_flatMap.1 hx
      exact (denominators_printable (h n hn).1 (h n hn).2 x hx).1
    · obtain ⟨n, hn, hx⟩ := List.mem_flatMap.1 hx
      exact (hready.of_mem n hn).of_mem_denominators x hx
  have hstatement := (longerUnless_printedRow (o := o) (fun x hx => (h x hx).1) hready
    (fun x hx hrx after => longerUnless_printed (h x hx).1 hrx after) false).statementOf
  -- a `*` that is left out in an assertion is left out in the statement too
  have hwritten : writtenRow items = true → ∀ x ∈ items.flatMap denominators, written x = true := by
    intro hw x hx
    obtain ⟨n, hn, hx⟩ := List.mem_flatMap.1 hx
    exact written_of_mem_denominators (writtenRow_of_mem hw n hn) x hx
  rw [hnames, hdivisions]
  refine ((hguards.after _).append (hstatement.after _)).congr ?_
  exact ⟨And.right, fun hw => ⟨fun _ => hwritten hw, hw⟩⟩

end

/-! ## 7. Solid trees -/

section

variable {n m : Node} {items row out applied : List Node}

theorem hasWord_row {kind : RowKind} (h : ∃ n ∈ items, HasWord n) : HasWord (.row kind items) := by
  obtain ⟨n, hn, a, ha, hword⟩ := h
  refine ⟨a, ?_, hword⟩
  rw [reading_row]
  exact mem_readingRow.2 ⟨n, hn, ha⟩

theorem hasWord_binary (kind : BinaryKind) (left right : Node) : HasWord (.binary kind left right) :=
  ⟨.operator (symbolOf kind), by simp, by cases kind <;> rfl⟩

theorem HasWord.folded (h : HasWord n) (hf : folded n = some m) : HasWord m := by
  rw [HasWord, folded_reading hf]
  exact h

-- stripping takes out brackets only
theorem HasWord.stripNode (h : HasWord n) (henclosed : Enclosed n) (inRow : Bool) :
    HasWord (stripNode inRow n).1 := by
  obtain ⟨a, ha, hword⟩ := h
  have hmem : a ∈ (reading n).filter (!isBracket ·) := List.mem_filter.2 ⟨ha, by rw [hword]; rfl⟩
  rw [← ((henclosed.stripNode inRow).2.1).filter_eq] at hmem
  exact ⟨a, (List.mem_filter.1 hmem).1, hword⟩

theorem Solid.folded (h : Solid n) (hf : folded n = some m) : Solid m := by
  induction h generalizing m with
  | leaf h =>
    rw [eq_of_folded_leaf hf]
    exact .leaf h
  | @row kind items _ hword ih =>
    have hkept := hword.folded hf
    rw [Formula.folded, Option.map_eq_some_iff] at hf
    obtain ⟨out, hout, rfl⟩ := hf
    exact .row (foldedFrom_forall hout .binary fun n hn m hm => ih n hn hm) hkept
  | unary _ ih =>
    rw [Formula.folded, Option.map_eq_some_iff] at hf
    obtain ⟨x, hx, rfl⟩ := hf
    exact .unary (ih hx)
  | binary _ _ ihl ihr =>
    rw [Formula.folded, Option.bind_eq_some_iff] at hf
    obtain ⟨l, hl, hf⟩ := hf
    obtain ⟨r, hr, rfl⟩ := Option.map_eq_some_iff.1 hf
    exact .binary (ihl hl) (ihr hr)

theorem Solid.stripNode (h : Solid n) (henclosed : Enclosed n) (inRow : Bool) :
    Solid (stripNode inRow n).1 := by
  induction h generalizing inRow with
  | leaf h =>
    rw [stripNode_leaf]
    exact .leaf h
  | @row kind items h hword ih =>
    have hkept := hword.stripNode henclosed inRow
    cases henclosed with
    | sequence hitems _ =>
      have hsolid : ∀ x ∈ (stripRow true items).1, Solid x := by
        rw [stripRow_fst]
        intro x hx
        obtain ⟨m, hm, rfl⟩ := List.mem_map.1 hx
        exact ih m hm (hitems m hm) true
      rw [stripNode_sequence] at hkept ⊢
      split at hkept
      · next hdrop =>
        rw [if_pos hdrop]
        exact .row (fun x hx => hsolid x (mem_of_mem_inner hx)) hkept
      · next hkeep =>
        rw [if_neg hkeep]
        exact .row hsolid hkept
  | unary _ ih =>
    cases henclosed with
    | squareRoot hcontent =>
      rw [stripNode_unary]
      exact .unary (ih hcontent false)
  | binary _ _ ihl ihr =>
    cases henclosed with
    | pair hl hr =>
      rw [stripNode_binary]
      exact .binary (ihl hl false) (ihr hr false)

/-- Two neighbours that are not the brackets of an empty pair. -/
def NotEmpty (a b : Node) : Prop :=
  ¬(a = .operator "(" ∧ b = .operator ")")

theorem isChain_notEmpty {words : List String} (h : Filled words) :
    (words.map leafOfWord).IsChain NotEmpty := by
  rw [List.isChain_map, List.isChain_iff_forall_rel_of_append_cons_cons]
  rintro a b front back rfl ⟨ha, hb⟩
  rw [leafOfWord_eq_operator_iff (by decide)] at ha hb
  exact h front back (by rw [ha, hb])

/-- Without empty brackets every piece is solid. -/
theorem solid_piece (h : Piece n) (hleaves : ∀ a ∈ reading n, ∃ word, a = leafOfWord word)
    (hchain : (reading n).IsChain NotEmpty) : Solid n ∧ HasWord n := by
  induction h with
  | @word kind text ho hc =>
    obtain ⟨word, hword⟩ := hleaves (.leaf kind text) (by simp)
    refine ⟨.leaf ?_, .leaf kind text, by simp, by rw [isBracket, ho, hc]; rfl⟩
    rintro rfl
    cases hop : Symbol.isOperator word with
    | true =>
      rw [leafOfWord_of_isOperator hop] at hword
      exact absurd hword (by simp)
    | false =>
      rcases leafOfWord_of_not_isOperator hop with hleaf | hleaf <;>
        exact absurd (hword.trans hleaf) (by simp)
  | @group inside hinside ih =>
    have hitems : ∀ x ∈ Node.operator "(" :: inside ++ [.operator ")"], reading x ≠ [] :=
      forall_mem_group (by simp) (fun x hx => IsItem.reading_ne_nil (.inl (hinside x hx))) (by simp)
    obtain ⟨htouch, hreadings⟩ := (isChain_readingRow hitems).1 hchain
    have hinner : ∀ x ∈ inside, Solid x ∧ HasWord x := by
      intro x hx
      refine ih x hx (fun a ha => hleaves a ?_) (hreadings x (by simp [hx]))
      rw [reading_group]
      simp only [List.cons_append, List.mem_cons, List.mem_append]
      exact .inr (.inl (mem_readingRow.2 ⟨x, hx, ha⟩))
    have hbracket {text : String} : Solid (.operator text) := .leaf (by decide)
    have hword : HasWord (.sequence (.operator "(" :: inside ++ [.operator ")"])) := by
      cases inside with
      | nil => exact absurd ⟨rfl, rfl⟩ (List.isChain_pair.1 htouch _ rfl _ rfl)
      | cons x rest => exact hasWord_row ⟨x, by simp, (hinner x List.mem_cons_self).2⟩
    exact ⟨.row (forall_mem_group hbracket (fun x hx => (hinner x hx).1) hbracket) hword, hword⟩

theorem solid_settle (h : ∀ x ∈ row, Solid x ∧ HasWord x) (hpieces : ∀ x ∈ row, Piece x)
    (hout : foldedFrom [] row = some out) (happlied : foldFunctions out = .ok applied) :
    ∀ x ∈ (settle applied).nodes, Solid x ∧ HasWord x := by
  have hfolded : ∀ x ∈ out, Solid x ∧ HasWord x :=
    foldedFrom_forall hout (fun hl hr => ⟨.binary hl.1 hr.1, hasWord_binary _ _ _⟩)
      fun x hx m hm => ⟨(h x hx).1.folded hm, (h x hx).2.folded hm⟩
  have hroots : ∀ x ∈ applied, Solid x ∧ HasWord x :=
    forall_mem_foldFunctions
      (fun _ hx => ⟨.unary hx.1, .identifier "sqrt", by simp, rfl⟩) hfolded happlied
  rw [settle_applied hpieces hout happlied]
  intro x hx
  obtain ⟨m, hm, rfl⟩ := List.mem_map.1 hx
  have henclosed := enclosed_applied hpieces hout happlied m hm
  exact ⟨(hroots m hm).1.stripNode henclosed false, (hroots m hm).2.stripNode henclosed false⟩

theorem solid_rootItems (h : ∀ x ∈ items, Solid x ∧ HasWord x) : ∀ x ∈ rootItems items, Solid x := by
  unfold rootItems
  split
  · next hlength =>
    obtain ⟨first, hfirst⟩ := List.exists_mem_of_length_pos (Nat.zero_lt_of_lt hlength)
    simpa using Solid.row (fun x hx => (h x hx).1) (hasWord_row ⟨first, hfirst, (h first hfirst).2⟩)
  · exact fun x hx => (h x hx).1

end

/-! ## 8. Formulas -/

/-- **The code of a formula with its products written out.**  A valid formula with its products written
out has code.  It is the code of the formula if emission leaves out no `*`; and if no bracket of the
formula is empty, only then. -/
theorem emit_explicit {formula : String} {inputs : List String} (h : isValid formula inputs = true) :
    ∃ tree, parse formula = .ok tree ∧ parse (explicit formula) = .ok (multiplied tree) ∧
      ∀ o, ∃ code code', emit o tree = .ok code ∧ emit o (multiplied tree) = .ok code' ∧
        (written tree = true → code' = code) ∧
        (Filled (Token.words formula) → (code' = code ↔ written tree = true)) := by
  obtain ⟨row, out, applied, hsteps⟩ := exists_steps h
  obtain ⟨tree, hparse, hexplicit⟩ := parse_explicit h
  obtain rfl : tree = rootOf (settle applied).nodes := Except.ok.inj (hparse.symm.trans hsteps.parses)
  have hprintable : ∀ n ∈ rootItems (settle applied).nodes, Printable n := by
    rw [settle_applied hsteps.pieces hsteps.folds hsteps.applies]
    refine printable_rootItems fun n hn => ?_
    obtain ⟨m, hm, rfl⟩ := List.mem_map.1 hn
    have henclosed := enclosed_applied hsteps.pieces hsteps.folds hsteps.applies m hm
    exact printable_enclosed (henclosed.stripNode false).1
  have hsolid (hfilled : Filled (Token.words formula)) : ReadyRow (rootItems (settle applied).nodes) := by
    have hpieces : ∀ n ∈ row, Solid n ∧ HasWord n := by
      have hchain : (readingRow row).IsChain NotEmpty := by
        rw [hsteps.reading]
        exact isChain_notEmpty hfilled
      have hreadings := ((isChain_readingRow fun n hn =>
        IsItem.reading_ne_nil (.inl (hsteps.pieces n hn))).1 hchain).2
      intro n hn
      refine solid_piece (hsteps.pieces n hn) (fun a ha => ?_) (hreadings n hn)
      have hmem : a ∈ readingRow row := mem_readingRow.2 ⟨n, hn, ha⟩
      rw [hsteps.reading] at hmem
      obtain ⟨word, -, hword⟩ := List.mem_map.1 hmem
      exact ⟨word, hword.symm⟩
    exact .inr (solid_rootItems (solid_settle hpieces hsteps.pieces hsteps.folds hsteps.applies))
  have hroot : rootOf (settle applied).nodes = .root (rootItems (settle applied).nodes) :=
    rootOf_eq_root _
  rw [hroot] at hparse hexplicit
  refine ⟨_, hparse, hexplicit, fun o => ?_⟩
  obtain ⟨code, code', hcode, hcode', hlonger⟩ := emit_root_multiplied hprintable o
  refine ⟨code, code', hcode, hcode', fun hwritten => ?_, fun hfilled => ?_⟩
  · rw [written] at hwritten
    exact (hlonger (.inl hwritten)).same hwritten
  · rw [written]
    exact (hlonger (hsolid hfilled)).iff

theorem emit_explicit_sum : isValid "2(a+(b(c)))" ["a", "b", "c"] = true ∧
    ∃ tree, parse "2(a+(b(c)))" = .ok tree ∧
      parse (explicit "2(a+(b(c)))") = .ok (multiplied tree) ∧
      ∀ o, ∃ code code', emit o tree = .ok code ∧ emit o (multiplied tree) = .ok code' ∧
        (written tree = true → code' = code) ∧
        (Filled (Token.words "2(a+(b(c)))") → (code' = code ↔ written tree = true)) := by
  have h : isValid "2(a+(b(c)))" ["a", "b", "c"] = true := by decide +kernel
  exact ⟨h, emit_explicit h⟩

/-- Where stripping has taken the brackets out, the `*` is missing. -/
theorem not_emit_explicit : ¬∀ formula inputs, isValid formula inputs = true →
    ∃ tree tree', parse formula = .ok tree ∧ parse (explicit formula) = .ok tree' ∧
      emit {} tree' = emit {} tree := by
  intro hall
  obtain ⟨tree, tree', hparse, hparse', hemit⟩ := hall "(2(3))" [] (by decide +kernel)
  have hcode : (parse "(2(3))").map (emit {}) = .ok (.ok "(23);") := by decide +kernel
  have hcode' : (parse (explicit "(2(3))")).map (emit {}) = .ok (.ok "(2*3);") := by decide +kernel
  rw [hparse] at hcode
  rw [hparse'] at hcode'
  rw [Except.ok.inj hcode, Except.ok.inj hcode'] at hemit
  exact absurd hemit (by decide)

end Formulary.Code
