import Yabwf.Lib.Chains
import Yabwf.Lib.Run
import Yabwf.Range

/-!
The nodes of the ranges: `range.c` with its pool, and what `response.c` and `get.c` do to the lists
of the requests.

* `RangeHeap`: the memory of the nodes, the pool, and the lists of any number of requests.
* `rangeParse`, `rangesFixup`, `completeResponse` and the others, with their loops along the links.
* `Owned`: every node is in the pool, on the list of one request, or in a local variable.
* `Shows`: the lists show the ranges of requests; each operation does to the ranges what the list
  functions of `range.c` do, and keeps the nodes owned.
* `ranges_owned`: no run loses a node or puts it in two places, and no loop fails to end.
-/

namespace Yabwf

open Chains Function

/-! ### The memory -/

/-- `struct range`. -/
structure RangeNode where
  start : ℕ := 0
  stop : ℕ := 0
  next : Option ℕ := none

/-- What may stop an operation: there is no memory, a null pointer is followed, or a loop goes
round more often than there are nodes. -/
inductive RangeStop
  | outOfMemory
  | nullPointer
  | endless
  deriving DecidableEq

/-- The answers of `malloc`, which depend on how often it has been called and on the nodes that
have been allocated and not freed. -/
structure Malloc where
  pick : ℕ → Finset ℕ → Option ℕ
  fresh : ∀ n live a, pick n live = some a → a ∉ live

/-- There is always memory above the nodes. -/
instance : Inhabited Malloc where
  default :=
    { pick := fun _ live => some (live.sup id + 1)
      fresh := by
        rintro n live a hpick ha
        have hle : a ≤ live.sup id := Finset.le_sup (f := id) ha
        have hadd := Option.some.inj hpick
        omega }

/-- The fields of a request that the operations on ranges use. -/
structure RangeFields where
  ranges : Option ℕ := none
  numranges : ℕ := 0
  filesize : ℕ := 0

/-- The nodes, `range_pool`, and the requests. -/
structure RangeHeap where
  node : ℕ → RangeNode := fun _ => {}
  live : Finset ℕ := ∅
  calls : ℕ := 0
  pool : Option ℕ := none
  req : ℕ → RangeFields := fun _ => {}

namespace RangeHeap

/-- The range that a node holds. -/
def range (s : RangeHeap) (a : ℕ) : Range := ⟨(s.node a).start, (s.node a).stop⟩

/-- The link of a node. -/
def next (s : RangeHeap) (a : ℕ) : Option ℕ := (s.node a).next

/-- `a->next = q`. -/
def setNext (s : RangeHeap) (a : ℕ) (q : Option ℕ) : RangeHeap :=
  { s with node := update s.node a { s.node a with next := q } }

/-- `a->start` and `a->stop` are set. -/
def setRange (s : RangeHeap) (a : ℕ) (r : Range) : RangeHeap :=
  { s with node := update s.node a { s.node a with start := r.start, stop := r.stop } }

/-- `req->ranges = q`. -/
def setRanges (s : RangeHeap) (i : ℕ) (q : Option ℕ) : RangeHeap :=
  { s with req := update s.req i { s.req i with ranges := q } }

/-- `req->numranges++`. -/
def addNumrange (s : RangeHeap) (i : ℕ) : RangeHeap :=
  { s with req := update s.req i { s.req i with numranges := (s.req i).numranges + 1 } }

/-- `req->filesize = n`. -/
def setFilesize (s : RangeHeap) (i n : ℕ) : RangeHeap :=
  { s with req := update s.req i { s.req i with filesize := n } }

/-! ### `range.c` -/

/-- `range_pool_push`. -/
def rangePoolPush (r : ℕ) (s : RangeHeap) : RangeHeap :=
  { s.setNext r s.pool with pool := some r }

/-- `a->start = 0`, `a->stop = 0` and `a->next = NULL`. -/
def zero (s : RangeHeap) (a : ℕ) : RangeHeap := { s with node := update s.node a {} }

/-- `range_pool_pop`. -/
def rangePoolPop (m : Malloc) (s : RangeHeap) : Except RangeStop (ℕ × RangeHeap) :=
  match s.pool with
  | some r => .ok (r, ({ s with pool := s.next r } : RangeHeap).zero r)
  | none =>
      match m.pick s.calls s.live with
      | none => .error .outOfMemory
      | some r =>
          .ok (r, ({ s with live := insert r s.live, calls := s.calls + 1 } : RangeHeap).zero r)

/-- The loop of `ranges_reset`, and of `ranges_fixup` for an empty file. -/
def pushLoop : ℕ → Option ℕ → RangeHeap → Except RangeStop RangeHeap
  | _, none, s => .ok s
  | 0, some _, _ => .error .endless
  | n + 1, some r, s => pushLoop n (s.next r) (s.rangePoolPush r)

/-- `ranges_reset`. -/
def rangesReset (i : ℕ) (s : RangeHeap) : Except RangeStop RangeHeap := do
  let s ← pushLoop s.live.card (s.req i).ranges s
  pure (s.setRanges i none)

/-- The loop of `range_pool_empty`. -/
def emptyLoop (m : Malloc) : ℕ → RangeHeap → Except RangeStop RangeHeap
  | n, s =>
      match s.pool with
      | none => .ok s
      | some _ =>
          match n with
          | 0 => .error .endless
          | n + 1 => do
              let (r, s) ← s.rangePoolPop m
              emptyLoop m n { s with live := s.live.erase r }

/-- `range_pool_empty`. -/
def rangePoolEmpty (m : Malloc) (s : RangeHeap) : Except RangeStop RangeHeap :=
  emptyLoop m s.live.card s

/-- `range_abort`. -/
def rangeAbort (m : Malloc) (i : ℕ) (s : RangeHeap) : Except RangeStop RangeHeap := do
  let s ← s.rangesReset i
  let (r, s) ← s.rangePoolPop m
  pure ((s.setRanges i (some r)).setRange r ⟨(s.range r).start, ulongMax⟩)

/-- The loop of `range_add`, which stops at the last node. -/
def lastLoop : ℕ → ℕ → RangeHeap → Except RangeStop ℕ
  | n, prev, s =>
      match s.next prev with
      | none => .ok prev
      | some p =>
          match n with
          | 0 => .error .endless
          | n + 1 => lastLoop n p s

/-- The node becomes the last one of the request. -/
def appendNode (i r : ℕ) (s : RangeHeap) : Except RangeStop RangeHeap :=
  match (s.req i).ranges with
  | none => pure (s.setRanges i (some r))
  | some first => do
      let prev ← lastLoop s.live.card first s
      pure (s.setNext prev (some r))

/-- `range_add`. -/
def rangeAdd (m : Malloc) (i start stop : ℕ) (s : RangeHeap) : Except RangeStop RangeHeap := do
  let (r, s) ← s.rangePoolPop m
  let s ← s.appendNode i r
  pure ((s.setRange r ⟨start, stop⟩).addNumrange i)

/-- What `ranges_fixup` makes of `start` and `stop` before it looks whether they are valid. -/
def boundRange (filesize : ℕ) (range : Range) : Range :=
  let stop := if range.stop = uintMax ∨ filesize ≤ range.stop then filesize - 1 else range.stop
  let start := if range.start = ulongMax then filesize - stop else range.start
  let stop := if range.start = ulongMax then filesize - 1 else stop
  ⟨start, stop⟩

/-- The loop of `ranges_fixup`. -/
def fixupLoop (filesize i : ℕ) : ℕ → Option ℕ → Option ℕ → RangeHeap → Except RangeStop RangeHeap
  | _, _, none, s => .ok s
  | 0, _, some _, _ => .error .endless
  | n + 1, prev, some r, s =>
      let s := s.setRange r (boundRange filesize (s.range r))
      if 2 ^ 63 ≤ (s.range r).start ∨ (s.range r).stop < (s.range r).start then
        let s :=
          match prev with
          | some p => s.setNext p (s.next r)
          | none => s
        fixupLoop filesize i n prev (s.next r) (s.rangePoolPush r)
      else
        let s := if prev = none then s.setRanges i (some r) else s
        fixupLoop filesize i n (some r) (s.next r) s

/-- `ranges_fixup`, and whether a range is left. -/
def rangesFixup (i : ℕ) (s : RangeHeap) : Except RangeStop (Bool × RangeHeap) := do
  let r := (s.req i).ranges
  let filesize := (s.req i).filesize
  let s := s.setRanges i none
  let s ←
    if filesize = 0 then pushLoop s.live.card r s
    else fixupLoop filesize i s.live.card none r s
  pure ((s.req i).ranges.isSome, s)

/-- The loop of `range_parse`. -/
def parseLoop (m : Malloc) (i : ℕ) :
    Bytes → RangeMode → ℕ → ℕ → RangeHeap → Except RangeStop (Bool × RangeHeap)
  | [], _, _, _, s => .ok (true, s)
  | b :: str, mode, start, stop, s =>
      let entry := rangeTable mode (rangeChar b)
      let start :=
        match entry.1 with
        | .pushBeginning => (start * 10 + (b.toNat - 48)) % 2 ^ 64
        | .disableBeginning => ulongMax
        | _ => start
      let stop :=
        match entry.1 with
        | .pushEnd => (stop * 10 + (b.toNat - 48)) % 2 ^ 64
        | .disableEnd => ulongMax
        | _ => stop
      match entry.2.1 with
      | .abort => do
          let s ← s.rangeAbort m i
          pure (false, s)
      | .submit =>
          if start = stop ∧ start = uintMax then do
            let s ← s.rangeAbort m i
            pure (false, s)
          else do
            let s ← s.rangeAdd m i start stop
            parseLoop m i str entry.2.2 0 0 s
      | .none => parseLoop m i str entry.2.2 start stop s

/-- `range_parse`. -/
def rangeParse (m : Malloc) (i : ℕ) (value : Bytes) (s : RangeHeap) :
    Except RangeStop (Bool × RangeHeap) :=
  if hasPrefixCase (str "bytes=") value then parseLoop m i (value.drop 6 ++ [0]) .initial 0 0 s
  else pure (false, s)

/-! ### `response.c`, `get.c` -/

/-- `complete_response`, as far as the ranges go. -/
def completeResponse (i : ℕ) (s : RangeHeap) : Except RangeStop RangeHeap :=
  match (s.req i).ranges with
  | none => .error .nullPointer
  | some r => .ok ((s.setRanges i (s.next r)).rangePoolPush r)

/-- The default range of `init_get`. -/
def defaultRange (m : Malloc) (i : ℕ) (s : RangeHeap) : Except RangeStop RangeHeap :=
  match (s.req i).ranges with
  | some _ => pure s
  | none => do
      let (r, s) ← s.rangePoolPop m
      pure ((s.setRanges i (some r)).setRange r ⟨0, ulongMax⟩)

/-- `req->ranges->start += n`. -/
def advance (i n : ℕ) (s : RangeHeap) : Except RangeStop RangeHeap :=
  match (s.req i).ranges with
  | none => .error .nullPointer
  | some r => .ok (s.setRange r ⟨(s.range r).start + n, (s.range r).stop⟩)

end RangeHeap

/-- A call that may change the ranges of a request, or the pool. -/
inductive RangeCall
  | rangeParse (i : ℕ) (value : Bytes)
  | rangesFixup (i : ℕ)
  | completeResponse (i : ℕ)
  | defaultRange (i : ℕ)
  | rangesReset (i : ℕ)
  | rangePoolEmpty
  | setFilesize (i n : ℕ)
  | advance (i n : ℕ)

/-- The effect of a call. -/
def RangeHeap.call (m : Malloc) (s : RangeHeap) : RangeCall → Except RangeStop RangeHeap
  | .rangeParse i value => do
      let res ← s.rangeParse m i value
      pure res.2
  | .rangesFixup i => do
      let res ← s.rangesFixup i
      pure res.2
  | .completeResponse i => s.completeResponse i
  | .defaultRange i => s.defaultRange m i
  | .rangesReset i => s.rangesReset i
  | .rangePoolEmpty => s.rangePoolEmpty m
  | .setFilesize i n => .ok (s.setFilesize i n)
  | .advance i n => s.advance i n

/-! ### Owners -/

/-- Where a node may be: in the pool, on the list of a request, or in a local variable. -/
inductive RangePlace
  | pool
  | request (i : ℕ)
  | held
  deriving DecidableEq

namespace RangeHeap

variable {s s' : RangeHeap} {held : Option ℕ} {L L' : RangePlace → List ℕ} {i : ℕ}

/-- The pointer to the first node of a place. -/
def head (s : RangeHeap) (held : Option ℕ) : RangePlace → Option ℕ
  | .pool => s.pool
  | .request i => (s.req i).ranges
  | .held => held

/-- Every node that has been allocated and not freed is in exactly one of the places. -/
def Owned (s : RangeHeap) (held : Option ℕ) (L : RangePlace → List ℕ) : Prop :=
  Partitioned s.next (s.head held) s.live L

lemma next_setNext (s : RangeHeap) (a : ℕ) (q : Option ℕ) :
    (s.setNext a q).next = update s.next a q := by
  funext b
  rw [next, setNext]
  dsimp only
  by_cases hba : b = a
  · rw [hba, update_self, update_self]
  · rw [update_of_ne hba, update_of_ne hba]
    rfl

lemma range_setNext (s : RangeHeap) (a : ℕ) (q : Option ℕ) : (s.setNext a q).range = s.range := by
  funext b
  rw [range, setNext]
  dsimp only
  by_cases hba : b = a
  · rw [hba, update_self]
    rfl
  · rw [update_of_ne hba]
    rfl

lemma next_setRange (s : RangeHeap) (a : ℕ) (r : Range) : (s.setRange a r).next = s.next := by
  funext b
  rw [next, setRange]
  dsimp only
  by_cases hba : b = a
  · rw [hba, update_self]
    rfl
  · rw [update_of_ne hba]
    rfl

lemma range_setRange (s : RangeHeap) (a : ℕ) (r : Range) :
    (s.setRange a r).range = update s.range a r := by
  funext b
  rw [range, setRange]
  dsimp only
  by_cases hba : b = a
  · rw [hba, update_self, update_self]
  · rw [update_of_ne hba, update_of_ne hba]
    rfl

lemma head_setRanges (s : RangeHeap) (held : Option ℕ) (i : ℕ) (q : Option ℕ) :
    (s.setRanges i q).head held = update (s.head held) (.request i) q := by
  funext o
  cases o with
  | request j =>
      by_cases hji : j = i
      · rw [hji, update_self, head, setRanges]
        dsimp only
        rw [update_self]
      · have hne : RangePlace.request j ≠ .request i := fun h => hji (RangePlace.request.inj h)
        rw [update_of_ne hne, head, setRanges]
        dsimp only
        rw [update_of_ne hji]
        rfl
  | _ => rfl

lemma head_pool (s : RangeHeap) (held q : Option ℕ) :
    ({ s with pool := q } : RangeHeap).head held = update (s.head held) .pool q := by
  funext o
  cases o <;> rfl

lemma head_held (s : RangeHeap) (held held' : Option ℕ) :
    s.head held' = update (s.head held) .held held' := by
  funext o
  cases o <;> rfl

lemma next_zero (s : RangeHeap) (a : ℕ) : (s.zero a).next = update s.next a none := by
  funext b
  rw [next, zero]
  dsimp only
  by_cases hba : b = a
  · rw [hba, update_self, update_self]
  · rw [update_of_ne hba, update_of_ne hba]
    rfl

lemma range_zero (s : RangeHeap) (a : ℕ) : (s.zero a).range = update s.range a ⟨0, 0⟩ := by
  funext b
  rw [range, zero]
  dsimp only
  by_cases hba : b = a
  · rw [hba, update_self, update_self]
  · rw [update_of_ne hba, update_of_ne hba]
    rfl

lemma next_push (s : RangeHeap) (a : ℕ) : (s.rangePoolPush a).next = update s.next a s.pool :=
  next_setNext s a s.pool

lemma range_push (s : RangeHeap) (a : ℕ) : (s.rangePoolPush a).range = s.range :=
  range_setNext s a s.pool

lemma head_push (s : RangeHeap) (held : Option ℕ) (a : ℕ) :
    (s.rangePoolPush a).head held = update (s.head held) .pool (some a) :=
  head_pool (s.setNext a s.pool) held (some a)

namespace Owned

variable {x p : ℕ} {l l' : List ℕ}

lemma head_eq (h : s.Owned held L) (o : RangePlace) : s.head held o = (L o).head? :=
  (h.chain o).head_eq

/-- The first node of the local list is pushed. -/
lemma push (h : s.Owned held L) (hx : L .held = x :: l) :
    (s.rangePoolPush x).Owned (s.next x) (update (update L .held l) .pool (x :: L .pool)) := by
  have hmove := Partitioned.move h (by decide : RangePlace.held ≠ .pool) hx
  rw [← head_held s held (s.next x), ← head_push] at hmove
  rw [Owned, next_push]
  exact hmove

/-- The first node of a request is pushed. -/
lemma complete (h : s.Owned held L) (hx : L (.request i) = x :: l) :
    ((s.setRanges i (s.next x)).rangePoolPush x).Owned held
      (update (update L (.request i) l) .pool (x :: L .pool)) := by
  have hmove := Partitioned.move h (by simp : RangePlace.request i ≠ .pool) hx
  rw [← head_setRanges, ← head_push] at hmove
  rw [Owned, next_push]
  exact hmove

/-- A node of the pool is popped. -/
lemma pop (h : s.Owned none L) (hheld : L .held = []) (hx : L .pool = x :: l) :
    (({ s with pool := s.next x } : RangeHeap).zero x).Owned (some x)
      (update (update L .pool l) .held [x]) := by
  have hmove := Partitioned.move h (by decide : RangePlace.pool ≠ .held) hx
  rw [hheld, ← head_pool, ← head_held _ none (some x)] at hmove
  rw [Owned, next_zero]
  exact hmove

/-- A node is allocated. -/
lemma alloc (h : s.Owned none L) (hheld : L .held = []) (hx : x ∉ s.live) (calls : ℕ) :
    (({ s with live := insert x s.live, calls := calls } : RangeHeap).zero x).Owned (some x)
      (update L .held [x]) := by
  have halloc := Partitioned.alloc h hheld hx
  rw [← head_held s none (some x)] at halloc
  rw [Owned, next_zero]
  exact halloc

/-- The local node is freed. -/
lemma free (h : s.Owned held L) (hx : L .held = [x]) :
    ({ s with live := s.live.erase x } : RangeHeap).Owned none (update L .held []) := by
  have hfree := Partitioned.free h hx
  rw [← head_held s held none] at hfree
  exact hfree

/-- The local list becomes the one of a request that has none. -/
lemma give (h : s.Owned held L) (hnil : L (.request i) = []) :
    (s.setRanges i held).Owned none (update (update L .held []) (.request i) (L .held)) := by
  have hhand := h.hand (o := .held) (by simp) hnil
  rw [← head_held s held none, ← head_setRanges] at hhand
  exact hhand

/-- The list of a request becomes the local one. -/
lemma take (h : s.Owned none L) (hnil : L .held = []) :
    (s.setRanges i none).Owned (s.req i).ranges
      (update (update L (.request i) []) .held (L (.request i))) := by
  have hhand := h.hand (o := .request i) (by simp) hnil
  rw [← head_setRanges, ← head_held _ none (s.head none (.request i))] at hhand
  exact hhand

/-- The local node is linked behind the last one of a request. -/
lemma link (h : s.Owned held L) (hx : L .held = [x]) (hp : L (.request i) = l ++ [p]) :
    (s.setNext p (some x)).Owned none
      (update (update L .held []) (.request i) (L (.request i) ++ [x])) := by
  have hlink := Partitioned.link h (by simp) hx hp
  have hhead : update (update (s.head held) .held none) (.request i) (s.head held (.request i))
      = (s.setNext p (some x)).head none := by
    rw [← head_held s held none]
    exact update_eq_self _ _
  rw [hhead] at hlink
  rw [Owned, next_setNext]
  exact hlink

/-- A node behind another one of a request is pushed. -/
lemma unlink (h : s.Owned held L) (hx : L (.request i) = l ++ p :: x :: l') :
    ((s.setNext p (s.next x)).rangePoolPush x).Owned held
      (update (update L (.request i) (l ++ p :: l')) .pool (x :: L .pool)) := by
  have hunlink := Partitioned.unlink h (by simp : RangePlace.request i ≠ .pool) hx
  rw [Owned, next_push, next_setNext, head_push]
  exact hunlink

lemma setRange (h : s.Owned held L) (a : ℕ) (r : Range) : (s.setRange a r).Owned held L := by
  rw [Owned, next_setRange]
  exact h

end Owned

/-! ### What the lists show -/

/-- The fields beside the list. -/
def sizes (s : RangeHeap) (i : ℕ) : ℕ × ℕ := ((s.req i).numranges, (s.req i).filesize)

/-- The lists show the ranges of the requests. -/
structure Shows (s : RangeHeap) (L : RangePlace → List ℕ) (v : ℕ → Request) : Prop where
  ranges : ∀ i, (L (.request i)).map s.range = (v i).ranges
  sizes : ∀ i, s.sizes i = ((v i).numranges, (v i).filesize)

/-- Between the calls: nothing is held, and the lists show the ranges of the requests. -/
def Holds (s : RangeHeap) (v : ℕ → Request) : Prop :=
  ∃ L, s.Owned none L ∧ L .held = [] ∧ s.Shows L v

variable {v : ℕ → Request} {r : Request}

/-- One request is changed. -/
lemma Shows.set (h : s.Shows L v) (hL : ∀ j, j ≠ i → L' (.request j) = L (.request j))
    (hrange : ∀ j, j ≠ i → ∀ a ∈ L (.request j), s'.range a = s.range a)
    (hsizes : ∀ j, j ≠ i → s'.sizes j = s.sizes j)
    (hr : (L' (.request i)).map s'.range = r.ranges)
    (hi : s'.sizes i = (r.numranges, r.filesize)) : s'.Shows L' (update v i r) := by
  refine ⟨fun j => ?_, fun j => ?_⟩
  · by_cases hji : j = i
    · rw [hji, update_self]
      exact hr
    · rw [update_of_ne hji, hL j hji, ← h.ranges j]
      exact List.map_congr_left (hrange j hji)
  · by_cases hji : j = i
    · rw [hji, update_self]
      exact hi
    · rw [update_of_ne hji, hsizes j hji]
      exact h.sizes j

/-- No request is changed. -/
lemma Shows.same (h : s.Shows L v) (hL : ∀ i, L' (.request i) = L (.request i))
    (hrange : ∀ i, ∀ a ∈ L (.request i), s'.range a = s.range a)
    (hsizes : ∀ i, s'.sizes i = s.sizes i) : s'.Shows L' v := by
  refine ⟨fun i => ?_, fun i => (hsizes i).trans (h.sizes i)⟩
  rw [hL i, ← h.ranges i]
  exact List.map_congr_left (hrange i)

lemma sizes_setRanges (s : RangeHeap) (i : ℕ) (q : Option ℕ) :
    (s.setRanges i q).sizes = s.sizes := by
  funext j
  rw [sizes, setRanges]
  dsimp only
  by_cases hji : j = i
  · rw [hji, update_self]
    rfl
  · rw [update_of_ne hji]
    rfl

/-- The requests are the same. -/
lemma sizes_congr (h : s'.req = s.req) (i : ℕ) : s'.sizes i = s.sizes i := by
  rw [sizes, sizes, h]

/-! ### Resetting -/

/-- The loop pushes the whole list. -/
lemma pushLoop_spec {R : List ℕ} (n : ℕ) (h : s.Owned R.head? L) (hheld : L .held = R)
    (hn : R.length ≤ n) :
    ∃ s' L', pushLoop n R.head? s = .ok s' ∧ s'.Owned none L' ∧ L' .held = [] ∧
      (∀ i, L' (.request i) = L (.request i)) ∧ s'.range = s.range ∧ s'.req = s.req := by
  induction R generalizing s L n with
  | nil => exact ⟨s, L, by rw [List.head?_nil, pushLoop], h, hheld, fun _ => rfl, rfl, rfl⟩
  | cons x R ih =>
      obtain ⟨n, rfl⟩ : ∃ k, n = k + 1 := ⟨n - 1, by simp only [List.length_cons] at hn; omega⟩
      have hpush := h.push hheld
      have hnext : s.next x = R.head? := by
        have hchain := h.chain .held
        rw [hheld] at hchain
        exact hchain.2.head_eq
      rw [hnext] at hpush
      have hlists (i : ℕ) : update (update L .held R) .pool (x :: L .pool) (.request i)
          = L (.request i) := by
        rw [update_of_ne (by simp), update_of_ne (by simp)]
      obtain ⟨s', L', hloop, howned, hnil, hL, hrange, hreq⟩ := ih n hpush
        (by rw [update_of_ne (by simp), update_self])
        (by simpa using hn)
      refine ⟨s', L', ?_, howned, hnil, fun i => (hL i).trans (hlists i),
        hrange.trans (range_push s x), hreq⟩
      rw [List.head?_cons, pushLoop, hnext]
      exact hloop

/-- The loop does not look at the requests. -/
lemma pushLoop_setRanges (n i : ℕ) (r q : Option ℕ) (s : RangeHeap) :
    pushLoop n r (s.setRanges i q)
      = (pushLoop n r s >>= fun s => pure (s.setRanges i q)) := by
  induction n generalizing r s with
  | zero => cases r <;> rfl
  | succ n ih =>
      cases r with
      | none => rfl
      | some r =>
          rw [pushLoop, pushLoop]
          exact ih _ (s.rangePoolPush r)

lemma Owned.length_le (h : s.Owned held L) (o : RangePlace) : (L o).length ≤ s.live.card :=
  Partitioned.length_le h o

/-- **`ranges_reset`.** -/
lemma rangesReset_spec (h : s.Holds v) (i : ℕ) :
    ∃ s', s.rangesReset i = .ok s' ∧ s'.Holds (update v i { v i with ranges := [] }) := by
  obtain ⟨L, howned, hheld, hshows⟩ := h
  have htake := howned.take (i := i) hheld
  have hheads := howned.head_eq (.request i)
  rw [head] at hheads
  rw [hheads] at htake
  have hlen := howned.length_le (.request i)
  obtain ⟨s', L', hloop, howned', hnil, hL, hrange, hreq⟩ :=
    pushLoop_spec s.live.card htake (update_self ..) hlen
  rw [pushLoop_setRanges] at hloop
  refine ⟨s', ?_, L', howned', hnil, ?_⟩
  · rw [rangesReset, hheads]
    exact hloop
  · have hlists (j : ℕ) (hji : j ≠ i) : L' (.request j) = L (.request j) := by
      rw [hL, update_of_ne (by simp), update_of_ne (by simpa using hji)]
    refine hshows.set hlists (fun j _ a _ => congrFun hrange a) (fun j _ => ?_) ?_ ?_
    · rw [sizes_congr hreq, sizes_setRanges]
    · rw [hL, update_of_ne (by simp), update_self]
      rfl
    · rw [sizes_congr hreq, sizes_setRanges]
      exact hshows.sizes i

/-! ### Parsing -/

/-- What `range_pool_pop` leaves: the node is held. -/
def Popped (s : RangeHeap) (L : RangePlace → List ℕ) (res : ℕ × RangeHeap) : Prop :=
  ∃ L', res.2.Owned (some res.1) L' ∧ L' .held = [res.1] ∧
    (∀ i, L' (.request i) = L (.request i)) ∧ res.2.range = update s.range res.1 ⟨0, 0⟩ ∧
    res.2.req = s.req

/-- **`range_pool_pop`.** -/
lemma rangePoolPop_spec (m : Malloc) (h : s.Owned none L) (hheld : L .held = []) :
    Ends (· = .outOfMemory) (s.Popped L) (s.rangePoolPop m) := by
  have hhead := h.head_eq .pool
  rw [head] at hhead
  unfold rangePoolPop
  split
  case h_1 x hpool =>
    rw [hpool] at hhead
    obtain ⟨l, hl⟩ : ∃ l, L .pool = x :: l := ⟨_, List.eq_cons_of_mem_head? hhead.symm⟩
    refine ⟨_, h.pop hheld hl, update_self .., fun i => ?_, range_zero _ x, rfl⟩
    rw [update_of_ne (by simp), update_of_ne (by simp)]
  case h_2 hpool =>
    cases hpick : m.pick s.calls s.live with
    | none => exact rfl
    | some x =>
        have hfresh := m.fresh _ _ _ hpick
        refine ⟨_, h.alloc hheld hfresh _, update_self .., fun i => ?_, range_zero _ x, rfl⟩
        rw [update_of_ne (by simp)]

/-- The node that is held is on no list. -/
lemma Popped.ne {res : ℕ × RangeHeap} (h : s.Popped L res) {j a : ℕ} (ha : a ∈ L (.request j)) :
    a ≠ res.1 := by
  obtain ⟨L', howned, hheld, hL, -, -⟩ := h
  rintro rfl
  refine howned.disjoint (.request j) .held (by simp) ((hL j).symm ▸ ha) ?_
  rw [hheld]
  exact List.mem_singleton_self _

lemma head_setRange (s : RangeHeap) (held : Option ℕ) (a : ℕ) (r : Range) :
    (s.setRange a r).head held = s.head held := rfl

/-- A node that has been popped becomes the list of a request that has none. -/
lemma Popped.give {res : ℕ × RangeHeap} (h : s.Popped L res) (hshows : s.Shows L v)
    (hnil : L (.request i) = []) (range : Range) :
    ((res.2.setRanges i (some res.1)).setRange res.1 range).Holds
      (update v i { v i with ranges := [range] }) := by
  have hother := fun j a (ha : a ∈ L (.request j)) => h.ne ha
  obtain ⟨L', howned, hheld, hL, hrange, hreq⟩ := h
  have hgive := howned.give ((hL i).trans hnil)
  refine ⟨_, hgive.setRange res.1 range, ?_, ?_⟩
  · rw [update_of_ne (by simp), update_self]
  · refine hshows.set (fun j hji => ?_) (fun j _ a ha => ?_) (fun j _ => ?_) ?_ ?_
    · rw [update_of_ne (by simpa using hji), update_of_ne (by simp), hL]
    · rw [range_setRange, update_of_ne (hother j a ha)]
      exact (congrFun hrange a).trans (update_of_ne (hother j a ha) ..)
    · exact (congrFun (sizes_setRanges res.2 i _) j).trans (sizes_congr hreq j)
    · rw [update_self, hheld, range_setRange, List.map_singleton, update_self]
    · exact ((congrFun (sizes_setRanges res.2 i _) i).trans (sizes_congr hreq i)).trans
        (hshows.sizes i)

/-- **`range_abort`.** -/
lemma rangeAbort_spec (m : Malloc) (h : s.Holds v) (i : ℕ) :
    Ends (· = .outOfMemory) (fun s' => s'.Holds (update v i (Yabwf.rangeAbort (v i))))
      (s.rangeAbort m i) := by
  obtain ⟨s₁, hreset, L, howned, hheld, hshows⟩ := rangesReset_spec h i
  have hnil : L (.request i) = [] := by
    have hranges := hshows.ranges i
    rw [update_self] at hranges
    exact List.map_eq_nil_iff.mp hranges
  rw [rangeAbort, hreset]
  refine (rangePoolPop_spec m howned hheld).bind fun res hpop => ?_
  have hgive := hpop.give hshows hnil ⟨0, ulongMax⟩
  rw [update_idem, update_self] at hgive
  obtain ⟨-, -, -, -, hrange, -⟩ := hpop
  have hzero : (res.2.range res.1).start = 0 := by rw [hrange, update_self]
  show ((res.2.setRanges i (some res.1)).setRange res.1
    ⟨(res.2.range res.1).start, ulongMax⟩).Holds _
  rw [hzero]
  exact hgive

/-- The loop of `range_add` finds the last node. -/
lemma lastLoop_spec {a : ℕ} {t : List ℕ} (n : ℕ) (h : Chain s.next (some a) (a :: t))
    (hn : t.length ≤ n) : ∃ l p, a :: t = l ++ [p] ∧ lastLoop n a s = .ok p := by
  induction t generalizing a n with
  | nil =>
      have hnext : s.next a = none := h.2
      refine ⟨[], a, rfl, ?_⟩
      unfold lastLoop
      rw [hnext]
  | cons b t ih =>
      have hnext : s.next a = some b := h.2.1
      obtain ⟨n, rfl⟩ : ∃ k, n = k + 1 := ⟨n - 1, by simp only [List.length_cons] at hn; omega⟩
      have hrest : Chain s.next (some b) (b :: t) := hnext ▸ h.2
      obtain ⟨l, p, hsplit, hloop⟩ := ih n hrest (by simpa using hn)
      refine ⟨a :: l, p, by rw [hsplit, List.cons_append], ?_⟩
      unfold lastLoop
      rw [hnext]
      exact hloop

lemma head_addNumrange (s : RangeHeap) (held : Option ℕ) (i : ℕ) :
    (s.addNumrange i).head held = s.head held := by
  funext o
  cases o with
  | request j =>
      rw [head, addNumrange]
      dsimp only
      by_cases hji : j = i
      · rw [hji, update_self]
        rfl
      · rw [update_of_ne hji]
        rfl
  | _ => rfl

lemma Owned.addNumrange (h : s.Owned held L) (i : ℕ) : (s.addNumrange i).Owned held L := by
  rw [Owned, head_addNumrange]
  exact h

lemma sizes_addNumrange (s : RangeHeap) (i j : ℕ) : (s.addNumrange i).sizes j =
    if j = i then ((s.req i).numranges + 1, (s.req i).filesize) else s.sizes j := by
  rw [sizes, addNumrange]
  dsimp only
  split_ifs with hji
  · rw [hji, update_self]
  · rw [update_of_ne hji]
    rfl

/-- The node that is held is linked behind the others. -/
lemma appendNode_spec {x : ℕ} (h : s.Owned (some x) L) (hx : L .held = [x]) (i : ℕ) :
    ∃ s' L', s.appendNode i x = .ok s' ∧ s'.Owned none L' ∧ L' .held = [] ∧
      L' (.request i) = L (.request i) ++ [x] ∧
      (∀ j, j ≠ i → L' (.request j) = L (.request j)) ∧ s'.range = s.range ∧
      s'.sizes = s.sizes := by
  have hhead := h.head_eq (.request i)
  rw [head] at hhead
  have hother (l : List ℕ) (j : ℕ) (hji : j ≠ i) :
      update (update L .held []) (.request i) l (.request j) = L (.request j) := by
    rw [update_of_ne (by simpa using hji), update_of_ne (by simp)]
  have hheld (l : List ℕ) : update (update L .held []) (.request i) l .held = [] := by
    rw [update_of_ne (by simp), update_self]
  rw [appendNode]
  cases hlist : L (.request i) with
  | nil =>
      rw [hlist, List.head?_nil] at hhead
      rw [hhead]
      have hgive := h.give hlist
      exact ⟨_, _, rfl, hgive, hheld _, by rw [update_self, hx, List.nil_append], hother _, rfl,
        sizes_setRanges s i _⟩
  | cons a t =>
      rw [hlist, List.head?_cons] at hhead
      rw [hhead]
      have hchain := h.chain (.request i)
      have hlen := h.length_le (.request i)
      rw [hlist] at hchain hlen
      have hfirst : Chain s.next (some a) (a :: t) := ⟨rfl, hchain.2⟩
      obtain ⟨l, p, hsplit, hloop⟩ := lastLoop_spec s.live.card hfirst
        ((Nat.le_succ _).trans hlen)
      have hlink := h.link hx (hlist.trans hsplit)
      refine ⟨s.setNext p (some x), _, ?_, hlink, hheld _, ?_, hother _, range_setNext .., rfl⟩
      · dsimp only
        rw [hloop]
        rfl
      · rw [update_self, hlist]

/-- **`range_add`.** -/
lemma rangeAdd_spec (m : Malloc) (h : s.Holds v) (i start stop : ℕ) :
    Ends (· = .outOfMemory)
      (fun s' => s'.Holds (update v i (Yabwf.rangeAdd (v i) start stop)))
      (s.rangeAdd m i start stop) := by
  obtain ⟨L, howned, hheld, hshows⟩ := h
  refine (rangePoolPop_spec m howned hheld).bind fun res hpop => ?_
  have hother := fun j a (ha : a ∈ L (.request j)) => hpop.ne ha
  obtain ⟨L₁, howned₁, hheld₁, hL₁, hrange₁, hreq₁⟩ := hpop
  obtain ⟨s₂, L₂, happend, howned₂, hnil, hi, hL₂, hrange₂, hsizes₂⟩ :=
    appendNode_spec howned₁ hheld₁ i
  show Ends (· = .outOfMemory) _ (res.2.appendNode i res.1 >>= fun s =>
    pure ((s.setRange res.1 ⟨start, stop⟩).addNumrange i))
  rw [happend]
  have hkept (a : ℕ) (ha : a ≠ res.1) :
      ((s₂.setRange res.1 ⟨start, stop⟩).addNumrange i).range a = s.range a := by
    show (s₂.setRange res.1 ⟨start, stop⟩).range a = s.range a
    rw [range_setRange, update_of_ne ha, hrange₂, hrange₁, update_of_ne ha]
  have hsizes (j : ℕ) : s₂.sizes j = s.sizes j := by
    rw [hsizes₂]
    exact sizes_congr hreq₁ j
  refine ⟨L₂, (howned₂.setRange _ _).addNumrange i, hnil, ?_⟩
  refine hshows.set (fun j hji => (hL₂ j hji).trans (hL₁ j))
    (fun j _ a ha => hkept a (hother j a ha)) (fun j hji => ?_) ?_ ?_
  · rw [sizes_addNumrange, if_neg hji]
    exact hsizes j
  · rw [hi, hL₁, List.map_append, List.map_singleton,
      List.map_congr_left fun a ha => hkept a (hother i a ha), hshows.ranges i]
    have hnew : ((s₂.setRange res.1 ⟨start, stop⟩).addNumrange i).range res.1 = ⟨start, stop⟩ := by
      show (s₂.setRange res.1 ⟨start, stop⟩).range res.1 = _
      rw [range_setRange, update_self]
    rw [hnew]
    rfl
  · rw [sizes_addNumrange, if_pos rfl]
    have hi' := (hsizes i).trans (hshows.sizes i)
    rw [sizes, Prod.mk.injEq] at hi'
    exact Prod.ext (congrArg (· + 1) hi'.1) hi'.2

/-- The loop of `range_parse` does to the list what the one on lists does. -/
lemma parseLoop_spec (m : Malloc) (i : ℕ) (str : Bytes) (mode : RangeMode) (start stop : ℕ)
    (h : s.Holds v) :
    Ends (· = .outOfMemory) (fun res => res.1 = (rangeLoop str mode start stop (v i)).1 ∧
      res.2.Holds (update v i (rangeLoop str mode start stop (v i)).2))
      (parseLoop m i str mode start stop s) := by
  induction str generalizing mode start stop s v with
  | nil =>
      refine ⟨rfl, ?_⟩
      show s.Holds (update v i (v i))
      rw [update_eq_self]
      exact h
  | cons b str ih =>
      unfold parseLoop rangeLoop
      extract_lets entry start' stop' start'' stop''
      have habort : Ends (· = .outOfMemory)
          (fun res => res.1 = false ∧ res.2.Holds (update v i (Yabwf.rangeAbort (v i))))
          (s.rangeAbort m i >>= fun s => pure (false, s)) :=
        (rangeAbort_spec m h i).bind fun s' hs' => ⟨rfl, hs'⟩
      cases entry.2.1 with
      | abort => exact habort
      | none => exact ih entry.2.2 start' stop' h
      | submit =>
          dsimp only
          by_cases hboth : start' = stop' ∧ start' = uintMax
          · have hboth' : start'' = stop'' ∧ start'' = uintMax := hboth
            rw [if_pos hboth, if_pos hboth']
            exact habort
          · have hboth' : ¬(start'' = stop'' ∧ start'' = uintMax) := hboth
            rw [if_neg hboth, if_neg hboth']
            refine (rangeAdd_spec m h i start' stop').bind fun s' hs' => ?_
            have hrest := ih entry.2.2 0 0 hs'
            rw [update_self] at hrest
            refine hrest.mono fun res hres => ⟨hres.1, ?_⟩
            have hholds := hres.2
            rwa [update_idem] at hholds

/-- **`range_parse`.** -/
lemma rangeParse_spec (m : Malloc) (h : s.Holds v) (i : ℕ) (value : Bytes) :
    Ends (· = .outOfMemory) (fun res => res.1 = (Yabwf.rangeParse (v i) value).1 ∧
      res.2.Holds (update v i (Yabwf.rangeParse (v i) value).2)) (s.rangeParse m i value) := by
  rw [rangeParse, Yabwf.rangeParse]
  split_ifs
  · exact parseLoop_spec m i _ _ _ _ h
  · refine ⟨rfl, ?_⟩
    show s.Holds (update v i (v i))
    rw [update_eq_self]
    exact h

/-! ### Fixing up -/

lemma rangeFixup_eq (filesize : ℕ) (range : Range) :
    rangeFixup filesize range =
      if 2 ^ 63 ≤ (boundRange filesize range).start ∨
          (boundRange filesize range).stop < (boundRange filesize range).start then none
      else some (boundRange filesize range) := rfl

/-- A round of the loop for a range that is dropped. -/
lemma fixupLoop_drop {filesize n x : ℕ} {prev : Option ℕ}
    (hdrop : rangeFixup filesize (s.range x) = none) :
    ∃ b, fixupLoop filesize i (n + 1) prev (some x) s =
      match prev with
      | some p =>
          fixupLoop filesize i n prev (((s.setRange x b).setNext p (s.next x)).next x)
            (((s.setRange x b).setNext p (s.next x)).rangePoolPush x)
      | none => fixupLoop filesize i n prev (s.next x) ((s.setRange x b).rangePoolPush x) := by
  refine ⟨boundRange filesize (s.range x), ?_⟩
  rw [rangeFixup_eq, ite_eq_left_iff] at hdrop
  have hbad := not_imp_comm.mp hdrop nofun
  conv_lhs => unfold fixupLoop
  dsimp only
  rw [range_setRange, update_self, if_pos hbad]
  cases prev with
  | none =>
      dsimp only
      rw [next_setRange]
  | some p =>
      dsimp only
      rw [next_setRange]

/-- A round of the loop for a range that is kept. -/
lemma fixupLoop_keep {filesize n x : ℕ} {prev : Option ℕ} {b : Range}
    (hkeep : rangeFixup filesize (s.range x) = some b) :
    fixupLoop filesize i (n + 1) prev (some x) s =
      fixupLoop filesize i n (some x) (s.next x)
        (if prev = none then (s.setRange x b).setRanges i (some x) else s.setRange x b) := by
  rw [rangeFixup_eq] at hkeep
  split_ifs at hkeep with hbad
  obtain rfl := Option.some.inj hkeep
  conv_lhs => unfold fixupLoop
  dsimp only
  rw [range_setRange, update_self, if_neg hbad]
  rw [← next_setRange s x (boundRange filesize (s.range x))]
  split_ifs <;> rfl

/-- One request has these ranges, and the others are as they were. -/
def Leaves (i : ℕ) (s : RangeHeap) (L : RangePlace → List ℕ) (ranges : List Range)
    (s' : RangeHeap) : Prop :=
  ∃ L', s'.Owned none L' ∧ L' .held = [] ∧
    (∀ j, j ≠ i → L' (.request j) = L (.request j)) ∧
    (∀ j, j ≠ i → ∀ a ∈ L (.request j), s'.range a = s.range a) ∧
    (∀ j, s'.sizes j = s.sizes j) ∧ (L' (.request i)).map s'.range = ranges

lemma Leaves.holds {ranges : List Range} (h : s.Leaves i L ranges s') (hshows : s.Shows L v) :
    s'.Holds (update v i { v i with ranges := ranges }) := by
  obtain ⟨L', howned, hheld, hL, hrange, hsizes, hi⟩ := h
  exact ⟨L', howned, hheld, hshows.set hL hrange (fun j _ => hsizes j) hi
    ((hsizes i).trans (hshows.sizes i))⟩

/-- Steps that leave the other requests alone. -/
lemma Leaves.of_step {s₁ : RangeHeap} {L₁ : RangePlace → List ℕ} {ranges : List Range}
    (h : s₁.Leaves i L₁ ranges s') (hL : ∀ j, j ≠ i → L₁ (.request j) = L (.request j))
    (hrange : ∀ j, j ≠ i → ∀ a ∈ L (.request j), s₁.range a = s.range a)
    (hsizes : ∀ j, s₁.sizes j = s.sizes j) : s.Leaves i L ranges s' := by
  obtain ⟨L', howned, hheld, hL', hrange', hsizes', hi⟩ := h
  refine ⟨L', howned, hheld, fun j hji => (hL' j hji).trans (hL j hji), fun j hji a ha => ?_,
    fun j => (hsizes' j).trans (hsizes j), hi⟩
  exact (hrange' j hji a ((hL j hji).symm ▸ ha)).trans (hrange j hji a ha)

lemma map_update_of_notMem {x : ℕ} {l : List ℕ} (f : ℕ → Range) (r : Range) (hx : x ∉ l) :
    l.map (update f x r) = l.map f := by
  refine List.map_congr_left fun a ha => update_of_ne ?_ ..
  rintro rfl
  exact hx ha

/-- Behind a node that stays, the loop goes on along the list of the request. -/
lemma fixupLoop_behind {filesize p : ℕ} {K R : List ℕ} (n : ℕ) (h : s.Owned none L)
    (hheld : L .held = []) (hlist : L (.request i) = K ++ p :: R) (hn : R.length ≤ n) :
    ∃ s', fixupLoop filesize i n (some p) R.head? s = .ok s' ∧
      s.Leaves i L ((K ++ [p]).map s.range ++ (R.map s.range).filterMap (rangeFixup filesize))
        s' := by
  induction R generalizing s L K p n with
  | nil =>
      refine ⟨s, by rw [List.head?_nil, fixupLoop], L, h, hheld, fun _ _ => rfl,
        fun _ _ _ _ => rfl, fun _ => rfl, ?_⟩
      rw [hlist, List.map_nil, List.filterMap_nil, List.append_nil]
  | cons x R ih =>
      obtain ⟨n, rfl⟩ : ∃ k, n = k + 1 := ⟨n - 1, by simp only [List.length_cons] at hn; omega⟩
      have hnodup := (h.chain (.request i)).nodup
      rw [hlist] at hnodup
      have hx : x ∉ K ∧ x ≠ p ∧ x ∉ R := by
        simp only [List.nodup_append, List.nodup_cons, List.mem_cons, not_or] at hnodup
        obtain ⟨-, ⟨⟨hpx, -⟩, hxR, -⟩, hdisj⟩ := hnodup
        exact ⟨fun hxK => hdisj x hxK x (Or.inr (Or.inl rfl)) rfl, fun hxp => hpx hxp.symm, hxR⟩
      have hnext : s.next x = R.head? := by
        have hchain := h.chain (.request i)
        have hsplit : K ++ p :: x :: R = (K ++ [p]) ++ x :: R := by simp
        rw [hlist, hsplit] at hchain
        exact hchain.behind.head_eq
      have hmem : x ∈ L (.request i) := hlist ▸ by simp
      have hkept (b : Range) {l : List ℕ} (hl : x ∉ l) :
          l.map (s.setRange x b).range = l.map s.range := by
        rw [range_setRange]
        exact map_update_of_notMem s.range b hl
      have hother (b : Range) (j : ℕ) (hji : j ≠ i) (a : ℕ) (ha : a ∈ L (.request j)) :
          (s.setRange x b).range a = s.range a := by
        rw [range_setRange, update_of_ne]
        rintro rfl
        exact h.disjoint (.request j) (.request i) (by simpa using hji) ha hmem
      rw [List.head?_cons, List.map_cons]
      have hfront : x ∉ K ++ [p] := by simp [hx.1, hx.2.1]
      cases hfix : rangeFixup filesize (s.range x) with
      | none =>
          obtain ⟨b, heq⟩ := @fixupLoop_drop s i filesize n x (some p) hfix
          have hunlink := (h.setRange x b).unlink hlist
          rw [next_setRange] at hunlink
          have hgo : ((s.setRange x b).setNext p (s.next x)).next x = R.head? := by
            rw [next_setNext, update_of_ne hx.2.1, next_setRange, hnext]
          have hpushed : (((s.setRange x b).setNext p (s.next x)).rangePoolPush x).range
              = (s.setRange x b).range := by rw [range_push, range_setNext]
          have hlists (j : ℕ) (hji : j ≠ i) :
              update (update L (.request i) (K ++ p :: R)) .pool (x :: L .pool) (.request j)
                = L (.request j) := by
            rw [update_of_ne (by simp), update_of_ne (by simpa using hji)]
          obtain ⟨s', hloop, hleaves⟩ := ih n hunlink
            (by rw [update_of_ne (by simp), update_of_ne (by simp), hheld])
            (by rw [update_of_ne (by simp), update_self]) (by simpa using hn)
          refine ⟨s', ?_, ?_⟩
          · rw [heq]
            dsimp only
            rw [hgo]
            exact hloop
          · rw [List.filterMap_cons_none hfix, ← hkept b hfront, ← hkept b hx.2.2, ← hpushed]
            refine hleaves.of_step hlists (fun j hji a ha => ?_) fun _ => rfl
            rw [hpushed]
            exact hother b j hji a ha
      | some b =>
          have hfurther : L (.request i) = (K ++ [p]) ++ x :: R := by
            rw [hlist, List.append_assoc, List.singleton_append]
          obtain ⟨s', hloop, hleaves⟩ := ih n (h.setRange x b) hheld hfurther (by simpa using hn)
          refine ⟨s', ?_, ?_⟩
          · rw [fixupLoop_keep hfix, if_neg (by simp), hnext]
            exact hloop
          · have hranges : (K ++ [p]).map s.range ++ (b :: (R.map s.range).filterMap
                (rangeFixup filesize)) = ((K ++ [p]) ++ [x]).map (s.setRange x b).range ++
                  (R.map (s.setRange x b).range).filterMap (rangeFixup filesize) := by
              have hnew : [x].map (s.setRange x b).range = [b] := by
                rw [List.map_singleton, range_setRange, update_self]
              have hsplit : ((K ++ [p]) ++ [x]).map (s.setRange x b).range
                  = (K ++ [p]).map (s.setRange x b).range ++ [x].map (s.setRange x b).range :=
                List.map_append
              rw [hsplit, hkept b hfront, hkept b hx.2.2, hnew,
                List.append_assoc, List.singleton_append]
            rw [List.filterMap_cons_some hfix, hranges]
            exact hleaves.of_step (fun _ _ => rfl) (hother b) fun _ => rfl

/-- Until a node stays, the loop goes on along the local list. -/
lemma fixupLoop_first {filesize : ℕ} {R : List ℕ} (n : ℕ) (h : s.Owned R.head? L)
    (hheld : L .held = R) (hnil : L (.request i) = []) (hn : R.length ≤ n) :
    ∃ s', fixupLoop filesize i n none R.head? s = .ok s' ∧
      s.Leaves i L ((R.map s.range).filterMap (rangeFixup filesize)) s' := by
  induction R generalizing s L n with
  | nil =>
      refine ⟨s, by rw [List.head?_nil, fixupLoop], L, h, hheld, fun _ _ => rfl,
        fun _ _ _ _ => rfl, fun _ => rfl, ?_⟩
      rw [hnil]
      rfl
  | cons x R ih =>
      obtain ⟨n, rfl⟩ : ∃ k, n = k + 1 := ⟨n - 1, by simp only [List.length_cons] at hn; omega⟩
      have hchain := h.chain .held
      rw [hheld] at hchain
      have hxR : x ∉ R := (List.nodup_cons.mp hchain.nodup).1
      have hnext : s.next x = R.head? := hchain.2.head_eq
      have hkept (b : Range) : R.map (s.setRange x b).range = R.map s.range := by
        rw [range_setRange]
        exact map_update_of_notMem s.range b hxR
      have hother (b : Range) (j : ℕ) (a : ℕ) (ha : a ∈ L (.request j)) :
          (s.setRange x b).range a = s.range a := by
        rw [range_setRange, update_of_ne]
        rintro rfl
        exact h.disjoint (.request j) .held (by simp) ha (hheld ▸ List.mem_cons_self)
      rw [List.head?_cons, List.map_cons]
      cases hfix : rangeFixup filesize (s.range x) with
      | none =>
          obtain ⟨b, heq⟩ := @fixupLoop_drop s i filesize n x none hfix
          have hpush := (h.setRange x b).push hheld
          rw [next_setRange, hnext] at hpush
          have hlists (j : ℕ) :
              update (update L .held R) .pool (x :: L .pool) (.request j) = L (.request j) := by
            rw [update_of_ne (by simp), update_of_ne (by simp)]
          obtain ⟨s', hloop, hleaves⟩ := ih n hpush
            (by rw [update_of_ne (by simp), update_self]) ((hlists i).trans hnil)
            (by simpa using hn)
          rw [range_push, hkept b] at hleaves
          refine ⟨s', ?_, ?_⟩
          · rw [heq]
            dsimp only
            rw [hnext]
            exact hloop
          · rw [List.filterMap_cons_none hfix]
            refine hleaves.of_step (fun j _ => hlists j) (fun j _ a ha => ?_) fun _ => rfl
            rw [range_push]
            exact hother b j a ha
      | some b =>
          have hgive := (h.setRange x b).give hnil
          obtain ⟨s', hloop, hleaves⟩ := fixupLoop_behind (K := []) n hgive
            (by rw [update_of_ne (by simp), update_self])
            (by rw [update_self, hheld, List.nil_append]) (by simpa using hn)
          refine ⟨s', ?_, ?_⟩
          · rw [fixupLoop_keep hfix, if_pos rfl, hnext]
            exact hloop
          · have hnew : ([] ++ [x]).map (s.setRange x b).range = [b] := by
              rw [List.nil_append, List.map_singleton, range_setRange, update_self]
            rw [List.filterMap_cons_some hfix, ← hkept b, ← List.singleton_append, ← hnew]
            refine hleaves.of_step (fun j hji => ?_) (fun j _ => hother b j) fun j => ?_
            · rw [update_of_ne (by simpa using hji), update_of_ne (by simp)]
            · exact congrFun (sizes_setRanges _ i _) j

/-- The ranges that `ranges_fixup` leaves. -/
def fixed (r : Request) : List Range :=
  if r.filesize = 0 then [] else r.ranges.filterMap (rangeFixup r.filesize)

lemma rangesFixup_fixed (cfg : Config) (env : Env) (c : Conn) :
    (Yabwf.rangesFixup cfg env c).1 = !(fixed c.req).isEmpty := by
  have hfixed : Yabwf.rangesFixup cfg env c =
      if fixed c.req = [] then
        (false, sendRInvalidRange cfg env (c.upd fun r => { r with ranges := fixed c.req }))
      else (true, c.upd fun r => { r with ranges := fixed c.req }) := rfl
  rw [hfixed]
  cases fixed c.req <;> rfl

/-- **`ranges_fixup`.** -/
lemma rangesFixup_spec (h : s.Holds v) (i : ℕ) :
    ∃ res, s.rangesFixup i = .ok res ∧ res.1 = !(fixed (v i)).isEmpty ∧
      res.2.Holds (update v i { v i with ranges := fixed (v i) }) := by
  obtain ⟨L, howned, hheld, hshows⟩ := h
  have htake := howned.take (i := i) hheld
  have hhead := howned.head_eq (.request i)
  rw [head] at hhead
  rw [hhead] at htake
  have hlen := howned.length_le (.request i)
  have hfilesize : (s.req i).filesize = (v i).filesize := congrArg Prod.snd (hshows.sizes i)
  have hlists (j : ℕ) (hji : j ≠ i) :
      update (update L (.request i) []) .held (L (.request i)) (.request j) = L (.request j) := by
    rw [update_of_ne (by simp), update_of_ne (by simpa using hji)]
  -- the loops leave the ranges that are fixed up
  obtain ⟨s', hloop, hleaves⟩ : ∃ s',
      (if (s.req i).filesize = 0 then pushLoop s.live.card (s.req i).ranges (s.setRanges i none)
        else fixupLoop (s.req i).filesize i s.live.card none (s.req i).ranges
          (s.setRanges i none)) = .ok s' ∧
      s.Leaves i L (fixed (v i)) s' := by
    rw [hhead, hfilesize, fixed]
    split_ifs
    · obtain ⟨s', L', hloop, howned', hnil, hL, hrange, hreq⟩ :=
        pushLoop_spec s.live.card htake (update_self ..) hlen
      refine ⟨s', hloop, L', howned', hnil, fun j hji => (hL j).trans (hlists j hji),
        fun j _ a _ => congrFun hrange a, fun j => ?_, ?_⟩
      · rw [sizes_congr hreq, sizes_setRanges]
      · rw [hL, update_of_ne (by simp), update_self]
        rfl
    · obtain ⟨s', hloop, hleaves⟩ := @fixupLoop_first _ _ i (v i).filesize _ s.live.card htake
        (update_self ..) (by rw [update_of_ne (by simp), update_self]) hlen
      have hranges : (L (.request i)).map (s.setRanges i none).range = (v i).ranges :=
        hshows.ranges i
      rw [hranges] at hleaves
      exact ⟨s', hloop, hleaves.of_step hlists (fun _ _ _ _ => rfl)
        fun j => congrFun (sizes_setRanges s i none) j⟩
  refine ⟨((s'.req i).ranges.isSome, s'), ?_, ?_, hleaves.holds hshows⟩
  · rw [rangesFixup]
    dsimp only
    have hcard : (s.setRanges i none).live.card = s.live.card := rfl
    rw [hcard]
    split_ifs at hloop ⊢ <;> rw [hloop] <;> rfl
  · obtain ⟨L', howned', -, -, -, -, hi⟩ := hleaves
    have hhead' := howned'.head_eq (.request i)
    rw [head] at hhead'
    dsimp only
    rw [hhead', ← hi]
    cases L' (.request i) <;> rfl

/-! ### Responses -/

/-- **`complete_response`**: the first range goes. -/
lemma completeResponse_spec (h : s.Holds v) (i : ℕ) :
    Ends (fun e => e = .nullPointer ∧ (s.req i).ranges = none)
      (fun s' => s'.Holds (update v i { v i with ranges := (v i).ranges.tail }))
      (s.completeResponse i) := by
  obtain ⟨L, howned, hheld, hshows⟩ := h
  have hhead := howned.head_eq (.request i)
  rw [head] at hhead
  unfold completeResponse
  rw [hhead, ← hshows.ranges i]
  cases hlist : L (.request i) with
  | nil => exact ⟨rfl, rfl⟩
  | cons x l =>
      have hcomplete := howned.complete hlist
      refine ⟨_, hcomplete, ?_, ?_⟩
      · rw [update_of_ne (by simp), update_of_ne (by simp), hheld]
      · refine hshows.set (fun j hji => ?_) (fun j _ a _ => ?_) (fun j _ => ?_) ?_ ?_
        · rw [update_of_ne (by simp), update_of_ne (by simpa using hji)]
        · rw [range_push]
          rfl
        · exact congrFun (sizes_setRanges s i _) j
        · rw [update_of_ne (by simp), update_self, range_push]
          rfl
        · exact (congrFun (sizes_setRanges s i _) i).trans (hshows.sizes i)

/-- **The default range of `init_get`.** -/
lemma defaultRange_spec (m : Malloc) (h : s.Holds v) (i : ℕ) :
    Ends (· = .outOfMemory)
      (fun s' => s'.Holds (update v i { v i with
        ranges := if (v i).ranges = [] then [⟨0, ulongMax⟩] else (v i).ranges }))
      (s.defaultRange m i) := by
  obtain ⟨L, howned, hheld, hshows⟩ := h
  have hhead := howned.head_eq (.request i)
  rw [head] at hhead
  unfold defaultRange
  rw [hhead]
  have hranges := hshows.ranges i
  cases hlist : L (.request i) with
  | nil =>
      rw [hlist, List.map_nil] at hranges
      rw [if_pos hranges.symm]
      exact (rangePoolPop_spec m howned hheld).bind fun res hpop => hpop.give hshows hlist _
  | cons x l =>
      rw [hlist, List.map_cons] at hranges
      rw [if_neg (by rw [← hranges]; exact List.cons_ne_nil _ _)]
      have hsame : update v i { v i with ranges := (v i).ranges } = v := update_eq_self i v
      show s.Holds (update v i { v i with ranges := (v i).ranges })
      rw [hsame]
      exact ⟨L, howned, hheld, hshows⟩

/-- The start of the first range moves. -/
lemma advance_spec (h : s.Holds v) (i n : ℕ) :
    Ends (fun e => e = .nullPointer ∧ (s.req i).ranges = none)
      (fun s' => s'.Holds (update v i { v i with
        ranges := (v i).ranges.modifyHead fun r => ⟨r.start + n, r.stop⟩ }))
      (s.advance i n) := by
  obtain ⟨L, howned, hheld, hshows⟩ := h
  have hhead := howned.head_eq (.request i)
  rw [head] at hhead
  unfold advance
  rw [hhead, ← hshows.ranges i]
  cases hlist : L (.request i) with
  | nil => exact ⟨rfl, rfl⟩
  | cons x l =>
      have hnodup := (howned.chain (.request i)).nodup
      rw [hlist] at hnodup
      refine ⟨L, howned.setRange x _, hheld, ?_⟩
      refine hshows.set (fun _ _ => rfl) (fun j hji a ha => ?_) (fun _ _ => rfl) ?_
        (hshows.sizes i)
      · rw [range_setRange, update_of_ne]
        rintro rfl
        exact howned.disjoint (.request j) (.request i) (by simpa using hji) ha
          (hlist ▸ List.mem_cons_self)
      · rw [hlist, List.map_cons, range_setRange, update_self,
          map_update_of_notMem _ _ (List.nodup_cons.mp hnodup).1]
        rfl

/-- The loop of `range_pool_empty` frees the whole pool. -/
lemma emptyLoop_spec (m : Malloc) {R : List ℕ} (n : ℕ) (h : s.Owned none L) (hheld : L .held = [])
    (hpool : L .pool = R) (hn : R.length ≤ n) :
    ∃ s' L', emptyLoop m n s = .ok s' ∧ s'.Owned none L' ∧ L' .held = [] ∧ L' .pool = [] ∧
      (∀ i, L' (.request i) = L (.request i)) ∧
      (∀ i, ∀ a ∈ L (.request i), s'.range a = s.range a) ∧ s'.req = s.req := by
  induction R generalizing s L n with
  | nil =>
      have hhead := h.head_eq .pool
      rw [head, hpool, List.head?_nil] at hhead
      refine ⟨s, L, ?_, h, hheld, hpool, fun _ => rfl, fun _ _ _ => rfl, rfl⟩
      unfold emptyLoop
      rw [hhead]
  | cons x R ih =>
      have hhead := h.head_eq .pool
      rw [head, hpool, List.head?_cons] at hhead
      obtain ⟨n, rfl⟩ : ∃ k, n = k + 1 := ⟨n - 1, by simp only [List.length_cons] at hn; omega⟩
      have hfree := (h.pop hheld hpool).free (update_self ..)
      have hlists (i : ℕ) : update (update (update L .pool R) .held [x]) .held []
          (.request i) = L (.request i) := by
        rw [update_of_ne (by simp), update_of_ne (by simp), update_of_ne (by simp)]
      obtain ⟨s', L', hloop, howned, hnil, hpool', hL, hrange, hreq⟩ := ih n hfree
        (update_self ..)
        (by rw [update_of_ne (by simp), update_of_ne (by simp), update_self]) (by simpa using hn)
      refine ⟨s', L', ?_, howned, hnil, hpool', fun i => (hL i).trans (hlists i),
        fun i a ha => ?_, hreq⟩
      · unfold emptyLoop
        rw [hhead]
        dsimp only
        rw [rangePoolPop, hhead]
        exact hloop
      · rw [hrange i a ((hlists i).symm ▸ ha)]
        have hne : a ≠ x := by
          rintro rfl
          exact h.disjoint (.request i) .pool (by simp) ha (hpool ▸ List.mem_cons_self)
        exact (congrFun (range_zero _ x) a).trans (update_of_ne hne ..)

/-- **`range_pool_empty`.** -/
lemma rangePoolEmpty_spec (m : Malloc) (h : s.Holds v) :
    ∃ s', s.rangePoolEmpty m = .ok s' ∧ s'.Holds v ∧ s'.pool = none := by
  obtain ⟨L, howned, hheld, hshows⟩ := h
  obtain ⟨s', L', hloop, howned', hnil, hpool, hL, hrange, hreq⟩ :=
    emptyLoop_spec m s.live.card howned hheld rfl (howned.length_le .pool)
  refine ⟨s', hloop, ⟨L', howned', hnil, hshows.same hL hrange (sizes_congr hreq)⟩, ?_⟩
  have hhead := howned'.head_eq .pool
  rw [head, hpool] at hhead
  exact hhead

lemma setFilesize_holds (h : s.Holds v) (i n : ℕ) :
    (s.setFilesize i n).Holds (update v i { v i with filesize := n }) := by
  obtain ⟨L, howned, hheld, hshows⟩ := h
  have hhead : (s.setFilesize i n).head none = s.head none := by
    funext o
    cases o with
    | request j =>
        rw [head, setFilesize]
        dsimp only
        by_cases hji : j = i
        · rw [hji, update_self]
          rfl
        · rw [update_of_ne hji]
          rfl
    | _ => rfl
  refine ⟨L, ?_, hheld, hshows.set (fun _ _ => rfl) (fun _ _ _ _ => rfl) (fun j hji => ?_)
    (hshows.ranges i) ?_⟩
  · rw [Owned, hhead]
    exact howned
  · rw [sizes, setFilesize]
    dsimp only
    rw [update_of_ne hji]
    rfl
  · rw [sizes, setFilesize]
    dsimp only
    rw [update_self]
    have hnum : (s.req i).numranges = (v i).numranges := congrArg Prod.fst (hshows.sizes i)
    exact Prod.ext hnum rfl

end RangeHeap

/-! ### Runs -/

/-- What a call does to the ranges of the requests. -/
def RangeCall.effect (v : ℕ → Request) : RangeCall → ℕ → Request
  | .rangeParse i value => update v i (Yabwf.rangeParse (v i) value).2
  | .rangesFixup i => update v i { v i with ranges := RangeHeap.fixed (v i) }
  | .completeResponse i => update v i { v i with ranges := (v i).ranges.tail }
  | .defaultRange i => update v i { v i with
      ranges := if (v i).ranges = [] then [⟨0, ulongMax⟩] else (v i).ranges }
  | .rangesReset i => update v i { v i with ranges := [] }
  | .rangePoolEmpty => v
  | .setFilesize i n => update v i { v i with filesize := n }
  | .advance i n => update v i { v i with
      ranges := (v i).ranges.modifyHead fun r => ⟨r.start + n, r.stop⟩ }

/-- The ranges of the requests after these calls. -/
def RangeCall.effects (calls : List RangeCall) : ℕ → Request :=
  calls.foldl RangeCall.effect fun i => { fd := i }

/-- The call follows the first range of a request, which has none. -/
def RangeCall.FollowsNull (s : RangeHeap) : RangeCall → Prop
  | .completeResponse i => (s.req i).ranges = none
  | .advance i _ => (s.req i).ranges = none
  | _ => False

/-- The reasons for which a call may stop. -/
def RangeCall.MayStop (s : RangeHeap) (c : RangeCall) (e : RangeStop) : Prop :=
  e = .outOfMemory ∨ e = .nullPointer ∧ c.FollowsNull s

/-- **One call** does to the lists what it does to the ranges of the requests. -/
lemma RangeHeap.call_spec (m : Malloc) {s : RangeHeap} {v : ℕ → Request} (h : s.Holds v)
    (c : RangeCall) : Ends (c.MayStop s) (fun s' => s'.Holds (c.effect v)) (s.call m c) := by
  cases c with
  | rangeParse i value =>
      refine ((rangeParse_spec m h i value).allow fun e => Or.inl).bind fun res hres => ?_
      exact hres.2
  | rangesFixup i =>
      obtain ⟨res, hok, -, hholds⟩ := rangesFixup_spec h i
      rw [call, hok]
      exact hholds
  | completeResponse i => exact (completeResponse_spec h i).allow fun e => Or.inr
  | defaultRange i => exact (defaultRange_spec m h i).allow fun e => Or.inl
  | rangesReset i =>
      obtain ⟨s', hok, hholds⟩ := rangesReset_spec h i
      rw [call, hok]
      exact hholds
  | rangePoolEmpty =>
      obtain ⟨s', hok, hholds, -⟩ := rangePoolEmpty_spec m h
      rw [call, hok]
      exact hholds
  | setFilesize i n => exact setFilesize_holds h i n
  | advance i n => exact (advance_spec h i n).allow fun e => Or.inr

/-- At the start there are no nodes. -/
lemma RangeHeap.holds_empty : ({} : RangeHeap).Holds fun i => { fd := i } := by
  refine ⟨fun _ => [], ?_, rfl, fun _ => rfl, fun _ => rfl⟩
  have hhead : ({} : RangeHeap).head none = fun _ => none := by
    funext o
    cases o <;> rfl
  rw [Owned, hhead]
  exact Partitioned.empty _

/-- **The calls of a run.** -/
lemma RangeHeap.calls_spec (m : Malloc) (calls : List RangeCall) :
    Ends (· ≠ .endless) (fun s => s.Holds (RangeCall.effects calls))
      (calls.foldlM (RangeHeap.call m) {}) := by
  refine Ends.foldlM (fun s v h c => ?_) RangeHeap.holds_empty calls
  refine (call_spec m h c).allow fun e he => ?_
  rcases he with rfl | ⟨rfl, -⟩ <;> nofun

/-- The pool and the list of each request end, no node is on one of them twice, every node on them
is allocated, and every node that has been allocated and not freed is in exactly one place: the
pool, or the list of exactly one request. -/
structure RangeHeap.Kept (s : RangeHeap) (pool : List ℕ) (lists : ℕ → List ℕ) : Prop where
  pool_ends : Chain s.next s.pool pool
  list_ends : ∀ i, Chain s.next (s.req i).ranges (lists i)
  pool_nodup : pool.Nodup
  list_nodup : ∀ i, (lists i).Nodup
  allocated : ∀ a, a ∈ pool ∨ (∃ i, a ∈ lists i) → a ∈ s.live
  one_place : ∀ a ∈ s.live, (a ∈ pool ∧ ∀ i, a ∉ lists i) ∨ (a ∉ pool ∧ ∃! i, a ∈ lists i)

lemma RangeHeap.Owned.kept {s : RangeHeap} {L : RangePlace → List ℕ} (h : s.Owned none L)
    (hheld : L .held = []) : s.Kept (L .pool) fun i => L (.request i) where
  pool_ends := h.chain .pool
  list_ends := fun i => h.chain (.request i)
  pool_nodup := (h.chain .pool).nodup
  list_nodup := fun i => (h.chain (.request i)).nodup
  allocated := by
    rintro a (ha | ⟨i, ha⟩)
    · exact (h.live a).mpr ⟨_, ha⟩
    · exact (h.live a).mpr ⟨_, ha⟩
  one_place := by
    intro a ha
    obtain ⟨o, ho, honly⟩ := Partitioned.existsUnique h ha
    dsimp only at ho honly
    cases o with
    | pool => exact Or.inl ⟨ho, fun i hi => nomatch honly _ hi⟩
    | request i =>
        refine Or.inr ⟨fun hp => (nomatch honly _ hp), i, ho, fun j hj => ?_⟩
        exact RangePlace.request.inj (honly _ hj)
    | held =>
        rw [hheld] at ho
        cases ho

/-- **Range nodes are neither lost nor shared**: after any calls for any requests, every node that
has been allocated and not freed is in the pool or on the list of exactly one request, and these
lists end; they show the ranges that the calls leave. No loop goes on for ever, and a call stops
only where there is no memory or it follows the first range of a request that has none. -/
theorem ranges_owned (m : Malloc) (calls : List RangeCall) :
    Ends (· ≠ .endless)
      (fun s => (∃ pool lists, s.Kept pool lists ∧
          ∀ i, (lists i).map s.range = (RangeCall.effects calls i).ranges) ∧
        ∀ c : RangeCall, Ends (c.MayStop s) (fun _ => True) (s.call m c))
      (calls.foldlM (RangeHeap.call m) {}) := by
  refine (RangeHeap.calls_spec m calls).mono fun s hholds => ⟨?_, fun c => ?_⟩
  · obtain ⟨L, howned, hheld, hshows⟩ := hholds
    exact ⟨_, _, howned.kept hheld, hshows.ranges⟩
  · exact (RangeHeap.call_spec m hholds c).mono fun _ _ => trivial

/-- The node of an invalid range is used again by another request. -/
example :
    ((([.rangeParse 0 (str "bytes=5-2,0-10,33-"), .setFilesize 0 100, .rangesFixup 0,
        .rangeParse 1 (str "bytes=-5"), .completeResponse 0] : List RangeCall).foldlM
      (RangeHeap.call default) {}).toOption.map fun s =>
        (s.pool, (s.req 0).ranges, (s.req 1).ranges, s.live.card))
      = some (some 2, some 3, some 1, 3) := by
  decide

end Yabwf
