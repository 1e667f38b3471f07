import Mathlib.Tactic

/-!
Cells that are linked into chains, each of which belongs to one owner.

* `Chain`: the links lead from a head through the cells of a list to the end. `Chain.nodup`: such a
  list has no cell twice.
* `Partitioned`: every live cell is on the chain of exactly one owner, and there are no others.
* `Partitioned.move`, `hand`, `link`, `unlink`, `alloc`, `free`: the first cell of a chain is pushed
  on another one; a chain changes hands; a cell is linked behind the last one of a chain, or taken
  out of the middle; a cell is allocated, or freed.
* `Ends`: what a computation returns, unless it stops with an error that is allowed.
-/

namespace Chains

open Function

section

variable {α : Type*}

/-- The links lead from the head through the cells of the list to the end. -/
def Chain (next : α → Option α) : Option α → List α → Prop
  | head, [] => head = none
  | head, a :: l => head = some a ∧ Chain next (next a) l

variable {next next' : α → Option α} {head : Option α} {l l' : List α} {x p : α}

lemma Chain.congr (h : Chain next head l) (hnext : ∀ a ∈ l, next' a = next a) :
    Chain next' head l := by
  induction l generalizing head with
  | nil => exact h
  | cons a l ih =>
      refine ⟨h.1, ?_⟩
      rw [hnext a List.mem_cons_self]
      exact ih h.2 fun b hb => hnext b (List.mem_cons_of_mem a hb)

/-- A head has one chain. -/
lemma Chain.unique (h : Chain next head l) (h' : Chain next head l') : l = l' := by
  induction l generalizing head l' with
  | nil =>
      cases l' with
      | nil => rfl
      | cons a' l' =>
          have hnone : head = none := h
          rw [hnone] at h'
          cases h'.1
  | cons a l ih =>
      cases l' with
      | nil =>
          have hnone : head = none := h'
          rw [hnone] at h
          cases h.1
      | cons a' l' =>
          obtain rfl : a = a' := Option.some.inj (h.1.symm.trans h'.1)
          rw [ih h.2 h'.2]

/-- The cells behind a cell are a chain from its link. -/
lemma Chain.behind (h : Chain next head (l ++ x :: l')) : Chain next (next x) l' := by
  induction l generalizing head with
  | nil => exact h.2
  | cons a l ih => exact ih h.2

/-- A chain that ends has no cell twice. -/
lemma Chain.nodup (h : Chain next head l) : l.Nodup := by
  induction l generalizing head with
  | nil => exact List.nodup_nil
  | cons a l ih =>
      refine List.nodup_cons.mpr ⟨fun ha => ?_, ih h.2⟩
      -- the links behind the second occurrence would lead on as they do behind the first one
      obtain ⟨l₁, l₂, rfl⟩ := List.append_of_mem ha
      have hsame := h.2.behind.unique h.2
      have hlen := congrArg List.length hsame
      rw [List.length_append, List.length_cons] at hlen
      omega

lemma Chain.head_eq (h : Chain next head l) : head = l.head? := by
  cases l with
  | nil => exact h
  | cons a l => exact h.1

variable [DecidableEq α]

/-- A cell that is not on the chain is linked. -/
lemma Chain.update (h : Chain next head l) (hx : x ∉ l) (q : Option α) :
    Chain (update next x q) head l := by
  refine h.congr fun a ha => update_of_ne ?_ ..
  rintro rfl
  exact hx ha

/-- A cell is pushed in front. -/
lemma Chain.push (h : Chain next head l) (hx : x ∉ l) :
    Chain (Function.update next x head) (some x) (x :: l) := by
  refine ⟨rfl, ?_⟩
  rw [update_self]
  exact h.update hx head

/-- Behind a cell the chain is replaced by another one. -/
lemma Chain.relink {l₁ : List α} {q : Option α} (h : Chain next head (l ++ p :: l₁))
    (h' : Chain next q l') (hp : p ∉ l') :
    Chain (Function.update next p q) head (l ++ p :: l') := by
  induction l generalizing head with
  | nil =>
      refine ⟨h.1, ?_⟩
      rw [update_self]
      exact h'.update hp q
  | cons a l ih =>
      have hnodup := h.nodup
      have hap : a ≠ p := by
        rintro rfl
        exact (List.nodup_cons.mp hnodup).1 (by simp)
      refine ⟨h.1, ?_⟩
      rw [update_of_ne hap]
      exact ih h.2

end

section

variable {α ω : Type*}

/-- Each owner has a chain, and each live cell is on exactly one of them. -/
structure Partitioned (next : α → Option α) (head : ω → Option α) (live : Finset α)
    (L : ω → List α) : Prop where
  chain : ∀ o, Chain next (head o) (L o)
  disjoint : ∀ o o', o ≠ o' → (L o).Disjoint (L o')
  live : ∀ a, a ∈ live ↔ ∃ o, a ∈ L o

namespace Partitioned

variable {next : α → Option α} {head : ω → Option α} {live : Finset α} {L : ω → List α}
  {o o' : ω} {x p : α} {l l' : List α}

/-- The owner of a cell is unique. -/
lemma owner_eq (h : Partitioned next head live L) (ho : x ∈ L o) (ho' : x ∈ L o') : o = o' := by
  by_contra hne
  exact h.disjoint o o' hne ho ho'

/-- **Exactly one place**: a live cell is on the chain of exactly one owner. -/
lemma existsUnique (h : Partitioned next head live L) (hx : x ∈ live) : ∃! o, x ∈ L o := by
  obtain ⟨o, ho⟩ := (h.live x).mp hx
  exact ⟨o, ho, fun o' ho' => h.owner_eq ho' ho⟩

/-- No chain is longer than the number of live cells. -/
lemma length_le (h : Partitioned next head live L) (o : ω) : (L o).length ≤ live.card := by
  classical
  rw [← List.toFinset_card_of_nodup (h.chain o).nodup]
  exact Finset.card_le_card fun a ha => (h.live a).mpr ⟨o, List.mem_toFinset.mp ha⟩

lemma empty (next : α → Option α) : Partitioned next (fun _ : ω => none) ∅ fun _ => [] :=
  ⟨fun _ => rfl, fun _ _ _ => List.disjoint_nil_left _, fun a => by simp⟩

variable [DecidableEq ω]

/-- The chains that are left where the cells of one owner go to another one. -/
lemma disjoint_update (h : Partitioned next head live L)
    (hmem : ∀ a, a ∈ l ∨ a ∈ l' → a ∈ L o ∨ a ∈ L o') (hll : l.Disjoint l') :
    ∀ i j, i ≠ j → (update (update L o l) o' l' i).Disjoint (update (update L o l) o' l' j) := by
  have hold (i : ω) (a : α) (ha : a ∈ update (update L o l) o' l' i) :
      (i = o' ∧ a ∈ l') ∨ (i = o ∧ a ∈ l) ∨ (i ≠ o ∧ i ≠ o' ∧ a ∈ L i) := by
    by_cases hi' : i = o'
    · rw [hi', update_self] at ha
      exact Or.inl ⟨hi', ha⟩
    · rw [update_of_ne hi'] at ha
      by_cases hi : i = o
      · rw [hi, update_self] at ha
        exact Or.inr (Or.inl ⟨hi, ha⟩)
      · rw [update_of_ne hi] at ha
        exact Or.inr (Or.inr ⟨hi, hi', ha⟩)
  have hother (i : ω) (a : α) (hi : i ≠ o) (hi' : i ≠ o') (ha : a ∈ L i)
      (hl : a ∈ l ∨ a ∈ l') : False := by
    rcases hmem a hl with hl | hl
    · exact h.disjoint i o hi ha hl
    · exact h.disjoint i o' hi' ha hl
  intro i j hij a hi hj
  rcases hold i a hi with ⟨hio', hl⟩ | ⟨hio, hl⟩ | ⟨hio, hio', hl⟩ <;>
    rcases hold j a hj with ⟨hjo', hl'⟩ | ⟨hjo, hl'⟩ | ⟨hjo, hjo', hl'⟩
  · exact hij (hio'.trans hjo'.symm)
  · exact hll hl' hl
  · exact hother j a hjo hjo' hl' (Or.inr hl)
  · exact hll hl hl'
  · exact hij (hio.trans hjo.symm)
  · exact hother j a hjo hjo' hl' (Or.inl hl)
  · exact hother i a hio hio' hl (Or.inr hl')
  · exact hother i a hio hio' hl (Or.inl hl')
  · exact h.disjoint i j hij hl hl'

lemma live_update (h : Partitioned next head live L) (hne : o ≠ o')
    (hmem : ∀ a, a ∈ l ∨ a ∈ l' ↔ a ∈ L o ∨ a ∈ L o') (a : α) :
    a ∈ live ↔ ∃ i, a ∈ update (update L o l) o' l' i := by
  rw [h.live a]
  constructor
  · rintro ⟨i, hi⟩
    by_cases hio : i = o ∨ i = o'
    · have hl : a ∈ l ∨ a ∈ l' := (hmem a).mpr (by rcases hio with rfl | rfl <;> simp [hi])
      rcases hl with hl | hl
      · refine ⟨o, ?_⟩
        rwa [update_of_ne hne, update_self]
      · refine ⟨o', ?_⟩
        rwa [update_self]
    · refine ⟨i, ?_⟩
      rwa [update_of_ne fun hi' => hio (Or.inr hi'), update_of_ne fun hi' => hio (Or.inl hi')]
  · rintro ⟨i, hi⟩
    by_cases hi' : i = o'
    · rw [hi', update_self] at hi
      exact ((hmem a).mp (Or.inr hi)).elim (fun hm => ⟨o, hm⟩) fun hm => ⟨o', hm⟩
    rw [update_of_ne hi'] at hi
    by_cases hio : i = o
    · rw [hio, update_self] at hi
      exact ((hmem a).mp (Or.inl hi)).elim (fun hm => ⟨o, hm⟩) fun hm => ⟨o', hm⟩
    · rw [update_of_ne hio] at hi
      exact ⟨i, hi⟩

/-- The cells of two owners are shared out anew, and only their chains are touched. -/
lemma redistribute (h : Partitioned next head live L) (hne : o ≠ o') {next' : α → Option α}
    {q q' : Option α} (hchain : Chain next' q l) (hchain' : Chain next' q' l')
    (hnext : ∀ a, a ∉ L o → a ∉ L o' → next' a = next a)
    (hmem : ∀ a, a ∈ l ∨ a ∈ l' ↔ a ∈ L o ∨ a ∈ L o') (hll : l.Disjoint l') :
    Partitioned next' (update (update head o q) o' q') live (update (update L o l) o' l') := by
  refine ⟨fun i => ?_, h.disjoint_update (fun a => (hmem a).mp) hll, h.live_update hne hmem⟩
  by_cases hi' : i = o'
  · rw [hi', update_self, update_self]
    exact hchain'
  rw [update_of_ne hi', update_of_ne hi']
  by_cases hi : i = o
  · rw [hi, update_self, update_self]
    exact hchain
  rw [update_of_ne hi, update_of_ne hi]
  exact (h.chain i).congr fun a ha =>
    hnext a (h.disjoint i o hi ha) (h.disjoint i o' hi' ha)

/-- A chain changes hands. -/
lemma hand (h : Partitioned next head live L) (hne : o ≠ o') (hnil : L o' = []) :
    Partitioned next (update (update head o none) o' (head o)) live
      (update (update L o []) o' (L o)) :=
  h.redistribute hne rfl (h.chain o) (fun _ _ _ => rfl) (fun a => by simp [hnil])
    (List.disjoint_nil_left _)

variable [DecidableEq α]

/-- **The first cell of a chain is pushed on another one.** -/
lemma move (h : Partitioned next head live L) (hne : o ≠ o') (hx : L o = x :: l) :
    Partitioned (update next x (head o')) (update (update head o (next x)) o' (some x)) live
      (update (update L o l) o' (x :: L o')) := by
  have hchain := h.chain o
  have hnodup := hchain.nodup
  rw [hx] at hchain hnodup
  obtain ⟨hxl, -⟩ := List.nodup_cons.mp hnodup
  have hx' : x ∉ L o' := h.disjoint o o' hne (hx ▸ List.mem_cons_self)
  refine h.redistribute hne (hchain.2.update hxl _) ((h.chain o').push hx') (fun a ha _ => ?_)
    (fun a => ?_) ?_
  · refine update_of_ne ?_ ..
    rintro rfl
    exact ha (hx ▸ List.mem_cons_self)
  · rw [hx, List.mem_cons, List.mem_cons]
    tauto
  · refine List.disjoint_cons_right.mpr ⟨hxl, fun a hl ha => ?_⟩
    exact h.disjoint o o' hne (hx ▸ List.mem_cons_of_mem x hl) ha

/-- **A cell is linked behind the last one of a chain.** -/
lemma link (h : Partitioned next head live L) (hne : o ≠ o') (hx : L o = [x])
    (hp : L o' = l ++ [p]) :
    Partitioned (update next p (some x)) (update (update head o none) o' (head o')) live
      (update (update L o []) o' (L o' ++ [x])) := by
  have hchain := h.chain o'
  have hone := h.chain o
  rw [hp] at hchain
  rw [hx] at hone
  have hpx : p ∉ [x] := fun hpx => h.disjoint o o' hne (hx ▸ hpx) (hp ▸ by simp)
  refine h.redistribute hne rfl ?_ (fun a _ ha => ?_) (fun a => ?_) (List.disjoint_nil_left _)
  · rw [hp, List.append_assoc]
    exact hchain.relink ⟨rfl, hone.2⟩ hpx
  · refine update_of_ne ?_ ..
    rintro rfl
    exact ha (hp ▸ by simp)
  · rw [hx, List.mem_append]
    simp only [List.not_mem_nil, false_or]
    tauto

/-- **A cell behind another one is taken out of a chain and pushed on another chain.** -/
lemma unlink (h : Partitioned next head live L) (hne : o ≠ o') (hx : L o = l ++ p :: x :: l') :
    Partitioned (update (update next p (next x)) x (head o')) (update head o' (some x)) live
      (update (update L o (l ++ p :: l')) o' (x :: L o')) := by
  have hchain := h.chain o
  have hnodup := hchain.nodup
  rw [hx] at hchain hnodup
  have hbehind : Chain next (next x) l' := by
    have happend : l ++ p :: x :: l' = (l ++ [p]) ++ x :: l' := by simp
    rw [happend] at hchain
    exact hchain.behind
  have hpx : p ∉ l' ∧ x ∉ l ++ p :: l' ∧ p ≠ x := by
    simp only [List.nodup_append, List.nodup_cons, List.mem_cons, not_or] at hnodup
    obtain ⟨-, ⟨⟨hpx, hpl⟩, hxl, -⟩, hdisj⟩ := hnodup
    refine ⟨hpl, fun hx => ?_, hpx⟩
    rcases List.mem_append.mp hx with hx | hx
    · exact hdisj x hx x (Or.inr (Or.inl rfl)) rfl
    · rcases List.mem_cons.mp hx with hx | hx
      · exact hpx hx.symm
      · exact hxl hx
  have hpo : p ∈ L o := hx ▸ by simp
  have hxo : x ∈ L o := hx ▸ by simp
  have hkept := (hchain.relink hbehind hpx.1).update hpx.2.1 (head o')
  have hpushed : Chain (update (update next p (next x)) x (head o')) (some x) (x :: L o') :=
    ((h.chain o').update (h.disjoint o o' hne hpo) (next x)).push (h.disjoint o o' hne hxo)
  have hhead : update head o' (some x) = update (update head o (head o)) o' (some x) := by
    rw [update_eq_self]
  rw [hhead]
  refine h.redistribute hne hkept hpushed (fun a ha _ => ?_) (fun a => ?_) ?_
  · have hax : a ≠ x := fun hax => ha (hax ▸ hxo)
    have hap : a ≠ p := fun hap => ha (hap ▸ hpo)
    rw [update_of_ne hax, update_of_ne hap]
  · rw [hx]
    simp only [List.mem_append, List.mem_cons]
    tauto
  · refine List.disjoint_cons_right.mpr ⟨hpx.2.1, fun a ha ha' => ?_⟩
    refine h.disjoint o o' hne (hx ▸ ?_) ha'
    simp only [List.mem_append, List.mem_cons] at ha ⊢
    tauto

/-- **A cell is allocated.** -/
lemma alloc (h : Partitioned next head live L) (hnil : L o = []) (hx : x ∉ live) :
    Partitioned (update next x none) (update head o (some x)) (insert x live)
      (update L o [x]) := by
  have hnot (i : ω) : x ∉ L i := fun hi => hx ((h.live x).mpr ⟨i, hi⟩)
  refine ⟨fun i => ?_, fun i j hij a hi hj => ?_, fun a => ?_⟩
  · by_cases hi : i = o
    · rw [hi, update_self, update_self]
      exact ⟨rfl, update_self ..⟩
    · rw [update_of_ne hi, update_of_ne hi]
      exact (h.chain i).update (hnot i) none
  · by_cases hi' : i = o
    · rw [hi', update_self, List.mem_singleton] at hi
      rw [update_of_ne (hi' ▸ hij.symm), hi] at hj
      exact hnot j hj
    · rw [update_of_ne hi'] at hi
      by_cases hj' : j = o
      · rw [hj', update_self, List.mem_singleton] at hj
        exact hnot i (hj ▸ hi)
      · rw [update_of_ne hj'] at hj
        exact h.disjoint i j hij hi hj
  · rw [Finset.mem_insert, h.live a]
    constructor
    · rintro (rfl | ⟨i, hi⟩)
      · exact ⟨o, by rw [update_self]; exact List.mem_singleton_self _⟩
      · refine ⟨i, ?_⟩
        rwa [update_of_ne]
        rintro rfl
        rw [hnil] at hi
        cases hi
    · rintro ⟨i, hi⟩
      by_cases hi' : i = o
      · rw [hi', update_self, List.mem_singleton] at hi
        exact Or.inl hi
      · rw [update_of_ne hi'] at hi
        exact Or.inr ⟨i, hi⟩

/-- **A cell is freed.** -/
lemma free (h : Partitioned next head live L) (hx : L o = [x]) :
    Partitioned next (update head o none) (live.erase x) (update L o []) := by
  have hxo : x ∈ L o := hx ▸ List.mem_singleton_self x
  refine ⟨fun i => ?_, fun i j hij a hi hj => ?_, fun a => ?_⟩
  · by_cases hi : i = o
    · rw [hi, update_self, update_self]
      rfl
    · rw [update_of_ne hi, update_of_ne hi]
      exact h.chain i
  · by_cases hi' : i = o
    · rw [hi', update_self] at hi
      cases hi
    · rw [update_of_ne hi'] at hi
      by_cases hj' : j = o
      · rw [hj', update_self] at hj
        cases hj
      · rw [update_of_ne hj'] at hj
        exact h.disjoint i j hij hi hj
  · rw [Finset.mem_erase, h.live a]
    constructor
    · rintro ⟨hax, i, hi⟩
      refine ⟨i, ?_⟩
      rwa [update_of_ne]
      rintro rfl
      rw [hx, List.mem_singleton] at hi
      exact hax hi
    · rintro ⟨i, hi⟩
      have hio : i ≠ o := by
        rintro rfl
        rw [update_self] at hi
        cases hi
      rw [update_of_ne hio] at hi
      exact ⟨fun hax => h.disjoint i o hio (hax ▸ hi) hxo, i, hi⟩

end Partitioned

end

/-! ### Computations that may stop -/

/-- The result meets the postcondition, or the error is allowed. -/
def Ends {ε α : Type} (allowed : ε → Prop) (post : α → Prop) : Except ε α → Prop
  | .ok a => post a
  | .error e => allowed e

namespace Ends

variable {ε α β : Type} {allowed : ε → Prop} {post : α → Prop} {x : Except ε α}

lemma mono {post' : α → Prop} (h : Ends allowed post x) (hpost : ∀ a, post a → post' a) :
    Ends allowed post' x := by
  cases x with
  | ok a => exact hpost a h
  | error e => exact h

lemma allow {allowed' : ε → Prop} (h : Ends allowed post x)
    (hallowed : ∀ e, allowed e → allowed' e) : Ends allowed' post x := by
  cases x with
  | ok a => exact h
  | error e => exact hallowed e h

lemma bind {post' : β → Prop} {f : α → Except ε β} (h : Ends allowed post x)
    (hf : ∀ a, post a → Ends allowed post' (f a)) : Ends allowed post' (x >>= f) := by
  cases x with
  | ok a => exact hf a h
  | error e => exact h

/-- What one step preserves, beside a second run that does not stop, a whole run preserves. -/
lemma foldlM {σ ι τ : Type} {step : σ → ι → Except ε σ} {step' : τ → ι → τ} {I : σ → τ → Prop}
    (hstep : ∀ s t, I s t → ∀ i, Ends allowed (fun s' => I s' (step' t i)) (step s i))
    {s : σ} {t : τ} (h : I s t) (is : List ι) :
    Ends allowed (fun s' => I s' (is.foldl step' t)) (is.foldlM step s) := by
  induction is generalizing s t with
  | nil => exact h
  | cons i is ih =>
      rw [List.foldlM_cons]
      exact (hstep s t h i).bind fun s' h' => ih h'

end Ends

end Chains
