import Mathlib.Tactic

/-!
Doubly linked lists through links that the cells themselves carry.

* `Links`, `enqueue`, `dequeue`: a memory of cells, and the usual operations on a list
  that is given by its head: pushing a cell in front, and taking a cell out.
* `Chain`, `Represents`: the cells from a head on are those of a list, each linked with its
  neighbours.
* `Represents.enqueue`, `Represents.dequeue`: the operations do to the list what they say,
  and `Represents.enqueue_other`, `Represents.dequeue_other`: they leave a list that has no
  cell in common with it alone.
-/

namespace Linked

variable {α : Type*} [DecidableEq α]

/-- The two links of a cell. -/
structure Links (α : Type*) where
  next : Option α := none
  prev : Option α := none
  deriving DecidableEq

/-- Storing a link to the next cell, unless the cell is none. -/
def setNext (mem : α → Links α) (cell next : Option α) : α → Links α :=
  match cell with
  | none => mem
  | some a => Function.update mem a { mem a with next := next }

/-- Storing a link to the previous cell, unless the cell is none. -/
def setPrev (mem : α → Links α) (cell prev : Option α) : α → Links α :=
  match cell with
  | none => mem
  | some a => Function.update mem a { mem a with prev := prev }

/-- Pushing a cell in front of a list: the new head and the memory. -/
def enqueue (head : Option α) (x : α) (mem : α → Links α) : Option α × (α → Links α) :=
  let mem := setPrev mem head (some x)
  (some x, Function.update mem x { next := head, prev := none })

/-- Taking a cell out of its list: the new head and the memory. -/
def dequeue (head : Option α) (x : α) (mem : α → Links α) : Option α × (α → Links α) :=
  let head := if head = some x then (mem x).next else head
  let mem := setNext mem (mem x).prev (mem x).next
  let mem := setPrev mem (mem x).next (mem x).prev
  (head, Function.update mem x { next := none, prev := none })

/-- The cells of the list are linked one after the other, the first one back to `p` and the
last one on to `q`. -/
def Chain (mem : α → Links α) : Option α → List α → Option α → Prop
  | _, [], _ => True
  | p, a :: l, q => (mem a).prev = p ∧ (mem a).next = l.head?.or q ∧ Chain mem (some a) l q

/-- The memory shows the list from the head on; no cell is on it twice. -/
structure Represents (mem : α → Links α) (head : Option α) (l : List α) : Prop where
  head_eq : head = l.head?
  chain : Chain mem none l none
  nodup : l.Nodup

omit [DecidableEq α] in
lemma chain_congr {mem mem' : α → Links α} {l : List α} (h : ∀ a ∈ l, mem' a = mem a)
    (p q : Option α) : Chain mem' p l q ↔ Chain mem p l q := by
  induction l generalizing p with
  | nil => exact Iff.rfl
  | cons a l ih =>
      rw [Chain, Chain, h a List.mem_cons_self,
        ih (fun b hb => h b (List.mem_cons_of_mem a hb))]

omit [DecidableEq α] in
/-- A chain is two chains. -/
lemma chain_append {mem : α → Links α} {l l' : List α} (p q : Option α) :
    Chain mem p (l ++ l') q ↔
      Chain mem p l (l'.head?.or q) ∧ Chain mem (l.getLast?.or p) l' q := by
  induction l generalizing p with
  | nil => simp [Chain]
  | cons a l ih =>
      have hlast : (a :: l).getLast?.or p = l.getLast?.or (some a) := by
        cases l with
        | nil => rfl
        | cons b l => simp [List.getLast?_cons]
      rw [List.cons_append, Chain, Chain, ih, hlast, List.head?_append, Option.or_assoc]
      tauto

lemma setNext_of_ne (mem : α → Links α) {cell : Option α} (next : Option α) {b : α}
    (h : cell ≠ some b) : setNext mem cell next b = mem b := by
  cases cell with
  | none => rfl
  | some a => exact Function.update_of_ne (fun hba => h (congrArg some hba.symm)) ..

lemma setPrev_of_ne (mem : α → Links α) {cell : Option α} (prev : Option α) {b : α}
    (h : cell ≠ some b) : setPrev mem cell prev b = mem b := by
  cases cell with
  | none => rfl
  | some a => exact Function.update_of_ne (fun hba => h (congrArg some hba.symm)) ..

/-- The last cell of a chain is linked on to another one. -/
lemma Chain.setNext {mem : α → Links α} {p q : Option α} {l : List α} (h : Chain mem p l q)
    (hl : l.Nodup) (q' : Option α) : Chain (setNext mem l.getLast? q') p l q' := by
  rcases List.eq_nil_or_concat l with rfl | ⟨l, a, rfl⟩
  · trivial
  · rw [List.concat_eq_append] at *
    have ha : a ∉ l := fun h => (List.nodup_append.mp hl).2.2 a h a (by simp) rfl
    obtain ⟨hinit, hlast⟩ := (chain_append p q).mp h
    rw [List.getLast?_concat]
    refine (chain_append p q').mpr ⟨?_, ?_⟩
    · refine (chain_congr (fun b hb => setNext_of_ne mem q' ?_) p _).mpr hinit
      rintro ⟨⟩
      exact ha hb
    · simpa [Chain, Linked.setNext] using hlast.1

/-- The first cell of a chain is linked back to another one. -/
lemma Chain.setPrev {mem : α → Links α} {p q : Option α} {l : List α} (h : Chain mem p l q)
    (hl : l.Nodup) (p' : Option α) : Chain (setPrev mem l.head? p') p' l q := by
  cases l with
  | nil => trivial
  | cons a l =>
      have ha := (List.nodup_cons.mp hl).1
      refine ⟨by simp [Linked.setPrev], by simpa [Linked.setPrev] using h.2.1, ?_⟩
      refine (chain_congr (fun b hb => setPrev_of_ne mem p' ?_) (some a) q).mpr h.2.2
      rintro ⟨⟩
      exact ha hb

namespace Represents

variable {mem : α → Links α} {head : Option α} {l l' : List α} {x : α}

omit [DecidableEq α] in
/-- No head shows the empty list. -/
lemma nil (mem : α → Links α) : Represents mem none [] := ⟨rfl, trivial, List.nodup_nil⟩

omit [DecidableEq α] in
/-- A head shows one list only. -/
lemma eq (h : Represents mem head l) (h' : Represents mem head l') : l = l' := by
  have hchain : ∀ {l l' : List α} {p : Option α}, l.head? = l'.head? → Chain mem p l none →
      Chain mem p l' none → l = l' := by
    intro l
    induction l with
    | nil => exact fun hhead _ _ => (List.head?_eq_none_iff.mp hhead.symm).symm
    | cons a l ih =>
        rintro (_ | ⟨a', l'⟩) p hhead hl hl'
        · cases hhead
        · obtain rfl := Option.some.inj hhead
          have hnext : l.head? = l'.head? := by
            simpa [Option.or_none] using hl.2.1.symm.trans hl'.2.1
          rw [ih hnext hl.2.2 hl'.2.2]
  exact hchain (h.head_eq.symm.trans h'.head_eq) h.chain h'.chain

omit [DecidableEq α] in
/-- The neighbours of a cell. -/
lemma links (h : Represents mem head (l ++ x :: l')) :
    (mem x).prev = l.getLast? ∧ (mem x).next = l'.head? := by
  obtain ⟨-, hx⟩ := (chain_append none none).mp h.chain
  exact ⟨hx.1.trans (Option.or_none ..), hx.2.1.trans (Option.or_none ..)⟩

/-- The cell itself is not the one in front of it. -/
lemma setNext_self (h : Represents mem head (l ++ x :: l')) (next : Option α) :
    setNext mem (mem x).prev next x = mem x := by
  refine setNext_of_ne mem _ fun hpx => ?_
  have hxl : x ∈ l := List.mem_of_getLast? (h.links.1 ▸ hpx)
  exact (List.nodup_append.mp h.nodup).2.2 x hxl x List.mem_cons_self rfl

/-- **`enqueue`** puts the cell in front. -/
lemma enqueue (h : Represents mem head l) (hx : x ∉ l) :
    Represents (enqueue head x mem).2 (enqueue head x mem).1 (x :: l) := by
  refine ⟨rfl, ⟨?_, ?_, ?_⟩, List.nodup_cons.mpr ⟨hx, h.nodup⟩⟩
  · simp [Linked.enqueue]
  · simp [Linked.enqueue, h.head_eq]
  · have hne : ∀ b ∈ l, b ≠ x := fun b hb hbx => hx (hbx ▸ hb)
    refine (chain_congr (fun b hb => Function.update_of_ne (hne b hb) ..) _ _).mpr ?_
    rw [h.head_eq]
    exact h.chain.setPrev h.nodup (some x)

/-- `enqueue` leaves other lists alone. -/
lemma enqueue_other {head' : Option α} (h : Represents mem head l)
    (h' : Represents mem head' l') (hx : x ∉ l') (hdisj : l.Disjoint l') :
    Represents (Linked.enqueue head x mem).2 head' l' := by
  refine ⟨h'.head_eq, (chain_congr (fun b hb => ?_) _ _).mpr h'.chain, h'.nodup⟩
  have hbx : b ≠ x := fun hbx => hx (hbx ▸ hb)
  have hhead : head ≠ some b := fun hhead =>
    hdisj (List.mem_of_mem_head? (h.head_eq ▸ hhead)) hb
  exact (Function.update_of_ne hbx ..).trans (setPrev_of_ne mem _ hhead)

/-- **`dequeue`** takes the cell out. -/
lemma dequeue (h : Represents mem head (l ++ x :: l')) :
    Represents (dequeue head x mem).2 (dequeue head x mem).1 (l ++ l') := by
  obtain ⟨hprev, hnext⟩ := h.links
  obtain ⟨hl, hxl, hdisj⟩ := List.nodup_append.mp h.nodup
  obtain ⟨hx, hl'⟩ := List.nodup_cons.mp hxl
  have hxl : x ∉ l := fun hxl => hdisj x hxl x List.mem_cons_self rfl
  obtain ⟨hfront, hback⟩ := (chain_append none none).mp h.chain
  refine ⟨?_, ?_, ?_⟩
  · rw [Linked.dequeue, h.head_eq]
    cases l with
    | nil => simpa using hnext
    | cons a l =>
        have hax : a ≠ x := fun hax => hxl (hax ▸ List.mem_cons_self)
        simp [hax]
  · have hnot : ∀ b ∈ l ++ l', b ≠ x := by
      rintro b hb rfl
      exact (List.mem_append.mp hb).elim hxl hx
    refine (chain_congr (fun b hb => Function.update_of_ne (hnot b hb) ..) _ _).mpr ?_
    rw [h.setNext_self, hprev, hnext]
    refine (chain_append none none).mpr ⟨?_, ?_⟩
    · have hfirst := hfront.setNext hl l'.head?
      rw [Option.or_none]
      refine (chain_congr (fun b hb => setPrev_of_ne _ _ fun hhead => ?_) _ _).mpr hfirst
      exact hdisj b hb b (List.mem_cons_of_mem x (List.mem_of_mem_head? hhead)) rfl
    · have hkept : Chain (setNext mem l.getLast? l'.head?) (some x) l' none := by
        refine (chain_congr (fun b hb => setNext_of_ne _ _ fun hlast => ?_) _ _).mpr hback.2.2
        exact hdisj b (List.mem_of_getLast? hlast) b (List.mem_cons_of_mem x hb) rfl
      rw [Option.or_none]
      exact hkept.setPrev hl' l.getLast?
  · exact h.nodup.sublist ((List.sublist_cons_self x l').append_left l)

/-- `dequeue` leaves other lists alone. -/
lemma dequeue_other {head' : Option α} {m : List α} (h : Represents mem head (l ++ x :: l'))
    (h' : Represents mem head' m) (hdisj : (l ++ x :: l').Disjoint m) :
    Represents (Linked.dequeue head x mem).2 head' m := by
  obtain ⟨hprev, hnext⟩ := h.links
  have hnot : ∀ b ∈ m, b ∉ l ++ x :: l' := fun b hb hb' => hdisj hb' hb
  refine ⟨h'.head_eq, (chain_congr (fun b hb => ?_) _ _).mpr h'.chain, h'.nodup⟩
  have hbx : b ≠ x := fun hbx => hnot b hb (by simp [hbx])
  have hbp : (mem x).prev ≠ some b := fun hp =>
    hnot b hb (List.mem_append_left _ (List.mem_of_getLast? (hprev ▸ hp)))
  have hbn : (mem x).next ≠ some b := fun hn =>
    hnot b hb (List.mem_append_right _ (List.mem_cons_of_mem x
      (List.mem_of_mem_head? (hnext ▸ hn))))
  have hnew : (Linked.dequeue head x mem).2 b
      = Linked.setPrev (Linked.setNext mem (mem x).prev (mem x).next) (mem x).next (mem x).prev
          b := by
    rw [Linked.dequeue, h.setNext_self]
    exact Function.update_of_ne hbx ..
  rw [hnew, setPrev_of_ne _ _ hbn, setNext_of_ne _ _ hbp]

/-- A cell of the list stands between two parts of it. -/
lemma erase_eq (h : Represents mem head l) (hx : x ∈ l) :
    ∃ l₁ l₂, l = l₁ ++ x :: l₂ ∧ l.erase x = l₁ ++ l₂ := by
  obtain ⟨l₁, l₂, rfl⟩ := List.append_of_mem hx
  have hx₁ : x ∉ l₁ := fun hx₁ =>
    (List.nodup_append.mp h.nodup).2.2 x hx₁ x List.mem_cons_self rfl
  exact ⟨l₁, l₂, rfl, by rw [List.erase_append_right _ hx₁, List.erase_cons_head]⟩

lemma dequeue_erase (h : Represents mem head l) (hx : x ∈ l) :
    Represents (Linked.dequeue head x mem).2 (Linked.dequeue head x mem).1 (l.erase x) := by
  obtain ⟨l₁, l₂, rfl, herase⟩ := h.erase_eq hx
  rw [herase]
  exact h.dequeue

lemma dequeue_erase_other {head' : Option α} (h : Represents mem head l)
    (h' : Represents mem head' l') (hx : x ∈ l) (hdisj : l.Disjoint l') :
    Represents (Linked.dequeue head x mem).2 head' l' := by
  obtain ⟨l₁, l₂, rfl, -⟩ := h.erase_eq hx
  exact h.dequeue_other h' hdisj

/-- The next cell is another cell of the list. -/
lemma next_mem (h : Represents mem head l) (hx : x ∈ l) {y : α} (hy : (mem x).next = some y) :
    y ∈ l.erase x := by
  obtain ⟨l₁, l₂, rfl, herase⟩ := h.erase_eq hx
  rw [herase]
  exact List.mem_append_right _ (List.mem_of_mem_head? (h.links.2 ▸ hy))

end Represents

end Linked
