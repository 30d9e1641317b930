import Formulary.Proofs.Folding
import Formulary.Proofs.Grouping
import Mathlib.Algebra.Group.Nat.Even
import Mathlib.Data.List.Chain
import Mathlib.Data.List.DropRight

/-!
# Operators and functions that lack an operand

When does a row of nodes fold?  Two nodes that stand side by side in a row are two leaves that stand
side by side in its reading (`isChain_readingRow`), so conditions on neighbours carry over between a
formula and its grouped row.  A grouped row folds exactly if its reading neither begins nor ends with
an operator to fold and has no two of them side by side (`IsGrouped.folded_iff`).  In the folded
row, every function name takes the node after it; the last name is left over exactly if the names
that end the row are odd in number (`foldFunctions_eq_ok_iff`).
-/

namespace Formulary.Formula

/-! ## 1. Neighbours in a row and in its reading -/

/-- The last leaf of one node and the first leaf of another are related. -/
def Touch (R : Node → Node → Prop) (x y : Node) : Prop :=
  ∀ a ∈ (reading x).getLast?, ∀ b ∈ (reading y).head?, R a b

theorem head?_readingRow {row : List Node} (hne : ∀ n ∈ row, reading n ≠ []) :
    (readingRow row).head? = row.head?.bind fun n => (reading n).head? := by
  cases row with
  | nil => rfl
  | cons n rest =>
    rw [readingRow_cons, List.head?_append_of_ne_nil _ (hne n List.mem_cons_self)]
    rfl

theorem getLast?_readingRow {row : List Node} (hne : ∀ n ∈ row, reading n ≠ []) :
    (readingRow row).getLast? = row.getLast?.bind fun n => (reading n).getLast? := by
  rcases List.eq_nil_or_concat row with rfl | ⟨front, n, rfl⟩
  · rfl
  · have hn : reading n ≠ [] := hne n (by simp)
    rw [List.concat_eq_append, readingRow_append, readingRow_cons, readingRow_nil,
      List.append_nil, List.getLast?_append_of_ne_nil _ hn, List.getLast?_concat]
    rfl

/-- Neighbours in a reading are neighbours inside a node of the row, or meet where two nodes of the
row do. -/
theorem isChain_readingRow {R : Node → Node → Prop} {row : List Node}
    (hne : ∀ n ∈ row, reading n ≠ []) :
    (readingRow row).IsChain R ↔ row.IsChain (Touch R) ∧ ∀ n ∈ row, (reading n).IsChain R := by
  induction row with
  | nil => simp
  | cons n rest ih =>
    have hrest : ∀ m ∈ rest, reading m ≠ [] := fun m hm => hne m (List.mem_cons_of_mem _ hm)
    rw [readingRow_cons, List.isChain_append, ih hrest, head?_readingRow hrest, List.isChain_cons,
      List.forall_mem_cons]
    -- where `n` meets the rest, it meets the first node of the rest
    have htouch : (∀ a ∈ (reading n).getLast?,
        ∀ b ∈ rest.head?.bind fun m => (reading m).head?, R a b) ↔
          ∀ y ∈ rest.head?, Touch R n y := by
      cases rest with
      | nil => simp
      | cons m more => simp [Touch]
    rw [htouch]
    tauto

/-! ## 2. Rows that fold -/

/-- Two leaves of which at most one is an operator to fold. -/
def Apart (a b : Node) : Prop :=
  binding? a = none ∨ binding? b = none

/-- A row in which every operator to fold finds a node on its two sides, given whether there is one
before the row. -/
structure Complete (preceded : Bool) (row : List Node) : Prop where
  head : preceded = false → ∀ n ∈ row.head?, binding? n = none
  last : ∀ n ∈ row.getLast?, binding? n = none
  apart : row.IsChain Apart
  inside : ∀ n ∈ row, binding? n = none → ∃ m, folded n = some m

theorem Complete.nil (preceded : Bool) : Complete preceded [] :=
  ⟨by simp, by simp, .nil, by simp⟩

theorem complete_cons_other {preceded : Bool} {n : Node} {rest : List Node}
    (hk : binding? n = none) :
    Complete preceded (n :: rest) ↔ (∃ m, folded n = some m) ∧ Complete true rest := by
  constructor
  · intro h
    refine ⟨h.inside n List.mem_cons_self hk, by simp, ?_, h.apart.tail, ?_⟩
    · intro m hm
      apply h.last m
      cases rest with
      | nil => exact absurd hm (by simp)
      | cons r more => rwa [List.getLast?_cons_cons]
    · exact fun m hm => h.inside m (List.mem_cons_of_mem _ hm)
  · rintro ⟨hn, hrest⟩
    refine ⟨fun _ m hm => ?_, ?_, hrest.apart.cons fun _ _ => .inl hk, ?_⟩
    · rw [← Option.some.inj hm]
      exact hk
    · intro m hm
      cases rest with
      | nil =>
        obtain rfl : n = m := by simpa using hm
        exact hk
      | cons r more =>
        rw [List.getLast?_cons_cons] at hm
        exact hrest.last m hm
    · intro m hm hkm
      rcases List.mem_cons.1 hm with rfl | hm
      · exact hn
      · exact hrest.inside m hm hkm

theorem complete_cons_binding {n : Node} {rest : List Node} {kind : BinaryKind}
    (hk : binding? n = some kind) :
    Complete true (n :: rest) ↔ ∃ right rest', rest = right :: rest' ∧
      (∃ m, folded right = some m) ∧ Complete true rest' := by
  constructor
  · intro h
    cases rest with
    | nil =>
      have hnone := h.last n (by simp)
      rw [hk] at hnone
      exact absurd hnone (by simp)
    | cons right rest' =>
      -- the node to the right is no operator, so it is an operand and can be folded
      have hright : binding? right = none := by
        rcases (List.isChain_cons_cons.1 h.apart).1 with hn | hr
        · rw [hk] at hn
          exact absurd hn (by simp)
        · exact hr
      have hrest : Complete true (right :: rest') :=
        ⟨by simp, fun m hm => h.last m (by rwa [List.getLast?_cons_cons]), h.apart.tail,
          fun m hm => h.inside m (List.mem_cons_of_mem _ hm)⟩
      obtain ⟨hfolded, hmore⟩ := (complete_cons_other hright).1 hrest
      exact ⟨right, rest', rfl, hfolded, hmore⟩
  · rintro ⟨right, rest', rfl, ⟨m, hm⟩, hmore⟩
    have hright := binding?_of_folded hm
    have hrest : Complete true (right :: rest') := (complete_cons_other hright).2 ⟨⟨m, hm⟩, hmore⟩
    refine ⟨by simp, ?_, ?_, ?_⟩
    · intro x hx
      rw [List.getLast?_cons_cons] at hx
      exact hrest.last x hx
    · exact hrest.apart.cons_cons (.inr hright)
    · intro x hx hkx
      rcases List.mem_cons.1 hx with rfl | hx
      · -- nothing is asked of the operator itself
        rw [hk] at hkx
        exact absurd hkx (by simp)
      · exact hrest.inside x hx hkx

/-- A row folds exactly if every operator to fold finds its operands. -/
theorem foldedFrom_eq_some_iff : ∀ {done row : List Node},
    (∃ out, foldedFrom done row = some out) ↔ Complete (!done.isEmpty) row
  | done, [] => by
    rw [foldedFrom_nil]
    exact ⟨fun _ => .nil _, fun _ => ⟨_, rfl⟩⟩
  | done, n :: rest => by
    cases hk : binding? n with
    | none =>
      -- what the row to the left was folded to does not matter, only that there is something
      have ih (m : Node) : (∃ out, foldedFrom (m :: done) rest = some out) ↔ Complete true rest :=
        foldedFrom_eq_some_iff
      rw [foldedFrom_other hk, complete_cons_other hk]
      constructor
      · rintro ⟨out, h⟩
        obtain ⟨m, hm, hf⟩ := Option.bind_eq_some_iff.1 h
        exact ⟨⟨m, hm⟩, (ih m).1 ⟨out, hf⟩⟩
      · rintro ⟨⟨m, hm⟩, hrest⟩
        rw [hm, Option.bind_some]
        exact (ih m).2 hrest
    | some kind =>
      cases done with
      | nil =>
        rw [foldedFrom_binding_first hk]
        refine ⟨fun ⟨_, h⟩ => absurd h (by simp), fun h => ?_⟩
        have hnone := h.head rfl n rfl
        rw [hk] at hnone
        exact absurd hnone (by simp)
      | cons left done =>
        show _ ↔ Complete true (n :: rest)
        rw [complete_cons_binding hk]
        cases rest with
        | nil =>
          rw [foldedFrom_binding_last hk]
          refine ⟨fun ⟨_, h⟩ => absurd h (by simp), ?_⟩
          rintro ⟨_, _, h, -⟩
          exact absurd h (by simp)
        | cons right rest =>
          have ih (r : Node) : (∃ out, foldedFrom (.binary kind left r :: done) rest = some out) ↔
              Complete true rest := foldedFrom_eq_some_iff
          rw [foldedFrom_binding hk]
          constructor
          · rintro ⟨out, h⟩
            obtain ⟨r, hr, hf⟩ := Option.bind_eq_some_iff.1 h
            exact ⟨right, rest, rfl, ⟨r, hr⟩, (ih r).1 ⟨out, hf⟩⟩
          · rintro ⟨_, _, h, ⟨r, hr⟩, hrest⟩
            obtain ⟨rfl, rfl⟩ := List.cons.inj h
            rw [hr, Option.bind_some]
            exact (ih r).2 hrest

/-! ## 3. Grouped rows that fold -/

/-- What can stand in a row of a grouped formula, inside a group or outside. -/
def IsItem (n : Node) : Prop :=
  Piece n ∨ n = .operator "(" ∨ n = .operator ")"

-- the first leaf of an item is an operator to fold exactly if the item is one
theorem IsItem.head {n : Node} (h : IsItem n) :
    ∃ a, (reading n).head? = some a ∧ binding? a = binding? n := by
  rcases h with h | rfl | rfl
  · cases h with
    | word _ _ => exact ⟨_, rfl, rfl⟩
    | group _ =>
      rw [reading_group]
      exact ⟨_, rfl, rfl⟩
  · exact ⟨_, rfl, rfl⟩
  · exact ⟨_, rfl, rfl⟩

theorem IsItem.last {n : Node} (h : IsItem n) :
    ∃ a, (reading n).getLast? = some a ∧ binding? a = binding? n := by
  rcases h with h | rfl | rfl
  · cases h with
    | word _ _ => exact ⟨_, rfl, rfl⟩
    | group _ =>
      rw [reading_group, List.getLast?_concat]
      exact ⟨_, rfl, rfl⟩
  · exact ⟨_, rfl, rfl⟩
  · exact ⟨_, rfl, rfl⟩

theorem IsItem.reading_ne_nil {n : Node} (h : IsItem n) : reading n ≠ [] := by
  obtain ⟨a, ha, -⟩ := h.head
  exact List.ne_nil_of_mem (List.mem_of_mem_head? ha)

theorem touch_apart_iff {x y : Node} (hx : IsItem x) (hy : IsItem y) :
    Touch Apart x y ↔ Apart x y := by
  obtain ⟨a, ha, hxa⟩ := hx.last
  obtain ⟨b, hb, hyb⟩ := hy.head
  rw [Touch, ha, hb, Apart, ← hxa, ← hyb]
  exact ⟨fun h => h a rfl b rfl, fun h _ ha _ hb => Option.some.inj ha ▸ Option.some.inj hb ▸ h⟩

/-- Leaves among which no operator to fold lacks an operand, given whether one comes before. -/
structure Fit (preceded : Bool) (leaves : List Node) : Prop where
  head : preceded = false → ∀ a ∈ leaves.head?, binding? a = none
  last : ∀ a ∈ leaves.getLast?, binding? a = none
  apart : leaves.IsChain Apart

theorem complete_iff_fit {row : List Node} (hitems : ∀ n ∈ row, IsItem n)
    (hinside : ∀ n ∈ row,
      (binding? n = none → ∃ m, folded n = some m) ↔ (reading n).IsChain Apart)
    (preceded : Bool) : Complete preceded row ↔ Fit preceded (readingRow row) := by
  have hne : ∀ n ∈ row, reading n ≠ [] := fun n hn => (hitems n hn).reading_ne_nil
  have hhead : (∀ n ∈ row.head?, binding? n = none) ↔
      ∀ a ∈ (readingRow row).head?, binding? a = none := by
    rw [head?_readingRow hne]
    cases hr : row.head? with
    | none => simp
    | some n =>
      obtain ⟨a, ha, hb⟩ := (hitems n (List.mem_of_mem_head? hr)).head
      simp [ha, hb]
  have hlast : (∀ n ∈ row.getLast?, binding? n = none) ↔
      ∀ a ∈ (readingRow row).getLast?, binding? a = none := by
    rw [getLast?_readingRow hne]
    cases hr : row.getLast? with
    | none => simp
    | some n =>
      obtain ⟨a, ha, hb⟩ := (hitems n (List.mem_of_mem_getLast? hr)).last
      simp [ha, hb]
  have hchain : row.IsChain (Touch Apart) ↔ row.IsChain Apart :=
    List.IsChain.iff_of_mem_imp fun x y hx hy => touch_apart_iff (hitems x hx) (hitems y hy)
  constructor
  · intro h
    refine ⟨fun hp => hhead.1 (h.head hp), hlast.1 h.last, (isChain_readingRow hne).2 ⟨?_, ?_⟩⟩
    · exact hchain.2 h.apart
    · exact fun n hn => (hinside n hn).1 (h.inside n hn)
  · intro h
    obtain ⟨htouch, hreading⟩ := (isChain_readingRow hne).1 h.apart
    exact ⟨fun hp => hhead.2 (h.head hp), hlast.2 h.last, hchain.1 htouch,
      fun n hn => (hinside n hn).2 (hreading n hn)⟩

theorem folded_row_iff {kind : RowKind} {items : List Node} :
    (∃ m, folded (.row kind items) = some m) ↔ Complete false items := by
  have hrow : (∃ out, foldedFrom [] items = some out) ↔ Complete false items :=
    foldedFrom_eq_some_iff
  rw [folded, ← hrow]
  constructor
  · rintro ⟨m, h⟩
    obtain ⟨out, hout, -⟩ := Option.map_eq_some_iff.1 h
    exact ⟨out, hout⟩
  · rintro ⟨out, hout⟩
    exact ⟨.row kind out, by rw [hout]; rfl⟩

/-- A complete piece folds exactly if it has no two operators to fold side by side: the brackets of a
group give operands to what stands next to them. -/
theorem Piece.folded_iff {n : Node} (h : Piece n) :
    (binding? n = none → ∃ m, folded n = some m) ↔ (reading n).IsChain Apart := by
  induction h with
  | word _ _ => exact ⟨fun _ => .singleton _, fun _ hk => ⟨_, folded_leaf hk⟩⟩
  | @group inner hinner ih =>
    have hitems : ∀ n ∈ Node.operator "(" :: inner ++ [.operator ")"], IsItem n :=
      forall_mem_group (.inr (.inl rfl)) (fun n hn => .inl (hinner n hn)) (.inr (.inr rfl))
    have hinside : ∀ n ∈ Node.operator "(" :: inner ++ [.operator ")"],
        (binding? n = none → ∃ m, folded n = some m) ↔ (reading n).IsChain Apart :=
      forall_mem_group ⟨fun _ => .singleton _, fun _ _ => ⟨_, rfl⟩⟩ ih
        ⟨fun _ => .singleton _, fun _ _ => ⟨_, rfl⟩⟩
    rw [folded_row_iff, complete_iff_fit hitems hinside, ← reading_row .sequence]
    -- a group begins and ends with a bracket, so only neighbours inside it matter
    refine ⟨fun h => (h rfl).apart, fun h _ => ⟨fun _ a ha => ?_, fun a ha => ?_, h⟩⟩
    · rw [reading_group] at ha
      rw [← Option.some.inj ha]
      rfl
    · rw [reading_group, List.getLast?_concat] at ha
      rw [← Option.some.inj ha]
      rfl

/-- **A grouped row folds exactly if no operator to fold lacks an operand among its leaves.** -/
theorem IsGrouped.folded_iff {row : List Node} (h : IsGrouped row) :
    (∃ out, foldedFrom [] row = some out) ↔ Fit false (readingRow row) := by
  have hitems : ∀ n ∈ row, IsItem n := fun n hn => (h n hn).imp id .inl
  have hinside : ∀ n ∈ row,
      (binding? n = none → ∃ m, folded n = some m) ↔ (reading n).IsChain Apart := by
    intro n hn
    rcases h n hn with hp | rfl
    · exact hp.folded_iff
    · exact ⟨fun _ => .singleton _, fun _ _ => ⟨_, rfl⟩⟩
  rw [← complete_iff_fit hitems hinside false]
  exact foldedFrom_eq_some_iff

/-! ## 4. Names at the end of a list -/

/-- The number of names at the end of a list; one less if what stands before them binds the first
of them. -/
def looseNames {α : Type} (name binds : α → Bool) (xs : List α) : Nat :=
  if (xs.rdropWhile name).getLast?.any binds then (xs.rtakeWhile name).length - 1
  else (xs.rtakeWhile name).length

section

variable {α β : Type} {name binds : α → Bool} {x : α} {xs ys : List α}

theorem rdropWhile_cons : (x :: xs).rdropWhile name =
    if xs.all name then (if name x then [] else [x]) else x :: xs.rdropWhile name := by
  rw [List.rdropWhile, List.reverse_cons, List.dropWhile_append]
  by_cases h : xs.all name = true
  · have hnil : xs.reverse.dropWhile name = [] := by
      rw [List.dropWhile_eq_nil_iff]
      exact fun a ha => List.all_eq_true.1 h a (List.mem_reverse.1 ha)
    rw [if_pos h, hnil, if_pos (by rfl)]
    cases hx : name x <;> simp [hx]
  · have hne : ¬(xs.reverse.dropWhile name).isEmpty = true := by
      rw [List.isEmpty_iff, List.dropWhile_eq_nil_iff]
      exact fun hall => h (List.all_eq_true.2 fun a ha => hall a (List.mem_reverse.2 ha))
    rw [if_neg h, if_neg hne, List.reverse_append, List.rdropWhile]
    rfl

theorem rtakeWhile_cons : (x :: xs).rtakeWhile name =
    if xs.all name then (if name x then x :: xs else xs) else xs.rtakeWhile name := by
  have happ : (x :: xs).rdropWhile name ++ (x :: xs).rtakeWhile name = x :: xs :=
    List.rdropWhile_append_rtakeWhile
  have happ' : xs.rdropWhile name ++ xs.rtakeWhile name = xs := List.rdropWhile_append_rtakeWhile
  -- both ends make up the list, so the end that is taken follows from the one that is dropped
  rw [rdropWhile_cons] at happ
  by_cases h : xs.all name = true
  · rw [if_pos h] at happ ⊢
    cases hx : name x <;> simpa [hx] using happ
  · rw [if_neg h] at happ ⊢
    rw [List.cons_append] at happ
    exact List.append_cancel_left ((List.cons.inj happ).2.trans happ'.symm)

theorem rtakeWhile_of_all (h : xs.all name = true) : xs.rtakeWhile name = xs :=
  List.rtakeWhile_eq_self_iff.2 (List.all_eq_true.1 h)

theorem looseNames_cons : looseNames name binds (x :: xs) =
    if xs.all name then
      if name x then xs.length + 1 else if binds x then xs.length - 1 else xs.length
    else looseNames name binds xs := by
  rw [looseNames, rdropWhile_cons, rtakeWhile_cons]
  by_cases h : xs.all name = true
  · rw [if_pos h, if_pos h, if_pos h]
    cases hx : name x <;> simp
  · have hne : xs.rdropWhile name ≠ [] := by
      rw [ne_eq, List.rdropWhile_eq_nil_iff]
      exact fun hall => h (List.all_eq_true.2 hall)
    rw [if_neg h, if_neg h, if_neg h, List.getLast?_cons_of_ne_nil hne, looseNames]

theorem looseNames_of_all (h : xs.all name = true) : looseNames name binds xs = xs.length := by
  cases xs with
  | nil => rfl
  | cons x xs =>
    obtain ⟨hx, hxs⟩ := Bool.and_eq_true_iff.1 h
    rw [looseNames_cons, if_pos hxs, if_pos hx, List.length_cons]

-- what stands before something else than a name has no part in it
theorem looseNames_append (h : ys.all name = false) :
    looseNames name binds (xs ++ ys) = looseNames name binds ys := by
  induction xs with
  | nil => rfl
  | cons x xs ih => rw [List.cons_append, looseNames_cons, List.all_append, h, Bool.and_false, ih,
      if_neg (by decide)]

theorem looseNames_map (f : β → α) (xs : List β) :
    looseNames name binds (xs.map f) = looseNames (name ∘ f) (binds ∘ f) xs := by
  induction xs with
  | nil => rfl
  | cons x xs ih =>
    rw [List.map_cons, looseNames_cons, looseNames_cons, ih, List.all_map, List.length_map]
    rfl

end

/-! ## 5. Function names -/

/-- Is the node the name of a function? -/
def isName (n : Node) : Bool :=
  (functionName? n).isSome

/-- Is the node an operator to fold? -/
def isBinding (n : Node) : Bool :=
  (binding? n).isSome

theorem isName_of_some {n : Node} {label : String} (h : functionName? n = some label) :
    isName n = true := by
  rw [isName, h]
  rfl

theorem isName_of_none {n : Node} (h : functionName? n = none) : isName n = false := by
  rw [isName, h]
  rfl

theorem isName_of_isBinding {n : Node} (h : isBinding n = true) : isName n = false := by
  obtain ⟨kind, hk⟩ := Option.isSome_iff_exists.1 h
  rw [binding?_eq_some_iff.1 hk]
  rfl

-- the names are leaves, and every node keeps its shape
theorem isName_of_folded {n m : Node} (h : folded n = some m) : isName m = isName n := by
  cases h using folded_induction with
  | leaf | bare | row | unary | binary => rfl

theorem endNames_concat (row : List Node) (n : Node) :
    ((row ++ [n]).rtakeWhile isName).length =
      if isName n then (row.rtakeWhile isName).length + 1 else 0 := by
  rw [List.rtakeWhile_concat]
  split
  · rw [List.length_append, List.length_singleton]
  · rfl

/-- The names that end a folded row are those that end the row before, less one that an operator
took. -/
theorem RowFold.endNames {done row out : List Node} (h : RowFold done row out) :
    (out.rtakeWhile isName).length =
      if row.all isName then row.length + (done.reverse.rtakeWhile isName).length
      else looseNames isName isBinding row := by
  induction h with
  | nil done => rw [List.all_nil, if_pos rfl, List.length_nil, Nat.zero_add]
  | @binding done rest out n left right r kind hk hr h ih =>
    have hn : isBinding n = true := by rw [isBinding, hk]; rfl
    have hright : isBinding right = false := by rw [isBinding, binding?_of_folded hr]; rfl
    rw [ih, List.all_cons, looseNames_cons, List.length_cons, isName_of_isBinding hn,
      List.reverse_cons, endNames_concat, List.all_cons, looseNames_cons, hn, hright]
    -- the right operand is not counted any more, and the pair is no name
    by_cases hall : rest.all isName = true
    · cases hname : isName right <;> simp [hall, isName, functionName?]
    · cases hname : isName right <;> simp [hall]
  | @other done rest out n m hk hm h ih =>
    have hn : isBinding n = false := by rw [isBinding, hk]; rfl
    rw [ih, List.all_cons, looseNames_cons, List.length_cons, List.reverse_cons, endNames_concat,
      isName_of_folded hm, hn]
    by_cases hall : rest.all isName = true
    · cases hname : isName n
      · simp [hall]
      · simp [hall]
        omega
    · simp [hall]

section

variable {n argument : Node} {rest : List Node} {label : String}

theorem foldFunctions_last (h : functionName? n = some label) :
    foldFunctions [n] = .error (.danglingFunction label) := by
  rw [foldFunctions.eq_def]
  dsimp only
  rw [h]

theorem foldFunctions_name (h : functionName? n = some label) :
    foldFunctions (n :: argument :: rest) =
      (foldFunctions rest).map (.unary .squareRoot argument :: ·) := by
  rw [foldFunctions.eq_def]
  dsimp only
  rw [h]

theorem foldFunctions_other (h : functionName? n = none) :
    foldFunctions (n :: rest) = (foldFunctions rest).map (n :: ·) := by
  rw [foldFunctions.eq_def]
  dsimp only
  rw [h]

end

-- a row in which no node is the name of a function stays as it is
theorem foldFunctions_of_forall {nodes : List Node} (h : ∀ n ∈ nodes, functionName? n = none) :
    foldFunctions nodes = .ok nodes := by
  induction nodes with
  | nil => rfl
  | cons n rest ih =>
    obtain ⟨hn, hrest⟩ := List.forall_mem_cons.1 h
    rw [foldFunctions_other hn, ih hrest]
    rfl

theorem exists_map_eq_ok_iff {α β : Type} {e : Except Fault α} {f : α → β} :
    (∃ b, e.map f = .ok b) ↔ ∃ a, e = .ok a := by
  cases e <;> simp [Except.map]

theorem map_eq_error_iff {α β : Type} {e : Except Fault α} {f : α → β} {fault : Fault} :
    e.map f = .error fault ↔ e = .error fault := by
  cases e <;> simp [Except.map]

theorem map_eq_ok_iff {α β : Type} {e : Except Fault α} {f : α → β} {b : β} :
    e.map f = .ok b ↔ ∃ a, e = .ok a ∧ f a = b := by
  cases e <;> simp [Except.map]

/-- Function names fold exactly if those that end the row are even in number: each takes the node
after it, which may be a name too. -/
theorem foldFunctions_eq_ok_iff {row : List Node} :
    (∃ out, foldFunctions row = .ok out) ↔ Even (row.rtakeWhile isName).length := by
  induction row using foldFunctions.induct with
  | case1 => exact ⟨fun _ => ⟨0, rfl⟩, fun _ => ⟨[], rfl⟩⟩
  | case2 n label hn =>
    have hname := isName_of_some hn
    rw [foldFunctions_last hn, rtakeWhile_cons, hname]
    constructor
    · rintro ⟨out, h⟩
      exact absurd h (by simp)
    · exact fun h => absurd h Nat.not_even_one
  | case3 n label hn argument rest ih =>
    -- the two nodes that leave together do not change the parity of the names at the end
    have hname := isName_of_some hn
    rw [foldFunctions_name hn, exists_map_eq_ok_iff, ih, rtakeWhile_cons, rtakeWhile_cons, hname,
      List.all_cons]
    by_cases hall : rest.all isName = true
    · rw [rtakeWhile_of_all hall, hall]
      cases isName argument
      · rfl
      · show Even rest.length ↔ Even (rest.length + 2)
        rw [Nat.even_iff, Nat.even_iff]
        omega
    · rw [Bool.eq_false_iff.2 hall, Bool.and_false]
      rfl
  | case4 n rest hn ih =>
    have hname := isName_of_none hn
    rw [foldFunctions_other hn, exists_map_eq_ok_iff, ih, rtakeWhile_cons, hname]
    by_cases hall : rest.all isName = true
    · rw [if_pos hall, rtakeWhile_of_all hall, if_neg (by decide)]
    · rw [if_neg hall]

theorem foldFunctions_fault {row : List Node} {fault : Fault}
    (h : foldFunctions row = .error fault) : ∃ label, fault = .danglingFunction label := by
  induction row using foldFunctions.induct with
  | case1 => exact absurd h (by simp [foldFunctions])
  | case2 n label hn =>
    rw [foldFunctions_last hn] at h
    exact ⟨label, (Except.error.inj h).symm⟩
  | case3 n label hn argument rest ih =>
    rw [foldFunctions_name hn, map_eq_error_iff] at h
    exact ih h
  | case4 n rest hn ih =>
    rw [foldFunctions_other hn, map_eq_error_iff] at h
    exact ih h

/-! ## 6. Names in a row and in its reading -/

-- an item is a leaf, or it ends with a bracket and is neither a name nor an operator to fold
theorem IsItem.cases {n : Node} (h : IsItem n) :
    reading n = [n] ∨ ((∃ front, reading n = front ++ [.operator ")"]) ∧
      isName n = false ∧ isBinding n = false) := by
  rcases h with h | rfl | rfl
  · cases h with
    | word _ _ => exact .inl (reading_leaf _ _)
    | group _ => exact .inr ⟨⟨_, reading_group _⟩, rfl, rfl⟩
  · exact .inl (reading_leaf _ _)
  · exact .inl (reading_leaf _ _)

theorem all_isName_readingRow {row : List Node} (h : ∀ n ∈ row, IsItem n) :
    (readingRow row).all isName = row.all isName ∧
      (row.all isName = true → (readingRow row).length = row.length) := by
  induction row with
  | nil => exact ⟨rfl, fun _ => rfl⟩
  | cons n rest ih =>
    obtain ⟨hn, hrest⟩ := List.forall_mem_cons.1 h
    obtain ⟨hall, hlength⟩ := ih hrest
    rw [readingRow_cons, List.all_append, List.all_cons, hall]
    rcases hn.cases with hleaf | ⟨⟨front, hfront⟩, hname, -⟩
    · rw [hleaf]
      refine ⟨by simp, fun hboth => ?_⟩
      rw [List.singleton_append, List.length_cons, List.length_cons,
        hlength (Bool.and_eq_true_iff.1 hboth).2]
    · have hbracket : (reading n).all isName = false := by
        rw [hfront, List.all_append]
        exact Bool.and_false _
      rw [hbracket, hname]
      exact ⟨rfl, fun hfalse => absurd hfalse (by simp)⟩

/-- The names that end a grouped row are those that end its reading. -/
theorem looseNames_readingRow {row : List Node} (h : ∀ n ∈ row, IsItem n) :
    looseNames isName isBinding (readingRow row) = looseNames isName isBinding row := by
  induction row with
  | nil => rfl
  | cons n rest ih =>
    obtain ⟨hn, hrest⟩ := List.forall_mem_cons.1 h
    obtain ⟨hall, hlength⟩ := all_isName_readingRow hrest
    rw [readingRow_cons, looseNames_cons]
    rcases hn.cases with hleaf | ⟨⟨front, hfront⟩, hname, hbind⟩
    · rw [hleaf, List.singleton_append, looseNames_cons, hall, ih hrest]
      by_cases hr : rest.all isName = true
      · rw [hlength hr]
      · rw [if_neg hr, if_neg hr]
    · -- names before the closing bracket of a group do not end the row
      have hbracket : (Node.operator ")" :: readingRow rest).all isName = false := rfl
      rw [hfront, List.append_assoc, List.singleton_append, looseNames_append hbracket,
        looseNames_cons, hall, ih hrest, hname, hbind]
      by_cases hr : rest.all isName = true
      · rw [if_pos hr, if_pos hr, hlength hr]
        rfl
      · rw [if_neg hr, if_neg hr]

/-- The function names of a grouped and folded row fold exactly if those that end its reading, less
one that an operator takes, are even in number. -/
theorem IsGrouped.foldFunctions_iff {row out : List Node} (h : IsGrouped row)
    (hf : foldedFrom [] row = some out) :
    (∃ applied, foldFunctions out = .ok applied) ↔
      Even (looseNames isName isBinding (readingRow row)) := by
  have hitems : ∀ n ∈ row, IsItem n := fun n hn => (h n hn).imp id .inl
  rw [foldFunctions_eq_ok_iff, (rowFold_of_foldedFrom hf).endNames, looseNames_readingRow hitems]
  by_cases hall : row.all isName = true
  · rw [if_pos hall, looseNames_of_all hall]
    rfl
  · rw [if_neg hall]

end Formulary.Formula
