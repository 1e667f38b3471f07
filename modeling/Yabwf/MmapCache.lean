import Yabwf.Globals
import Yabwf.Lib.Run

/-!
`mmap_cache.c`: the table of mapped files that requests share.

* `probe`: the loop of `find_mmap` over the table, counted in turns, and `probe_isSome`: it
  ends within one round of the table.
* `findMmap`, `releaseMmap`: the two operations, with the calls of the kernel they make.
* `MmapState`: the table together with the handles that are out and what is mapped;
  `MmapState.Counted` says that they agree.

The two counters that only statistics would read are left out. A handle belongs to an open
connection, of which there are fewer than `2 ^ 31`, so that `use_count` is a number.
-/

namespace Yabwf

/-- `MMAP_LIST_SIZE`. -/
abbrev mmapListSize : ℕ := 256

/-- `MMAP_LIST_USE_MAX`. -/
def mmapListUseMax : ℤ := 128

/-- `struct mmap_entry`; the mapping is its address. -/
structure MmapEntry where
  dev : ℕ := 0
  ino : ℕ := 0
  mmap : ℕ := 0
  useCount : ℕ := 0
  len : ℕ := 0
  deriving DecidableEq, Repr

/-- An index into `mmap_list`. -/
abbrev Slot := Fin mmapListSize

/-- `mmap_list` and `mmap_list_entries_used`. -/
structure MmapCache where
  list : Slot → MmapEntry := fun _ => {}
  entriesUsed : ℤ := 0

/-- The device, the inode and the size are those of the file. -/
def MmapEntry.Matches (e : MmapEntry) (s : Stat) : Prop :=
  e.dev = s.dev ∧ e.ino = s.ino ∧ e.len = s.size

instance (e : MmapEntry) (s : Stat) : Decidable (e.Matches s) :=
  inferInstanceAs (Decidable (_ ∧ _))

/-- `MMAP_LIST_NEXT`. -/
def mmapListNext (i : Slot) : Slot := i + 1

/-- `MMAP_LIST_HASH`. -/
def mmapListHash (s : Stat) : Slot := Fin.ofNat mmapListSize s.ino

/-- How the loop of `find_mmap` ends: at an entry of the file, at a free slot, or where it
began. -/
inductive Probe
  | found (i : Slot)
  | empty (i : Slot)
  | full
  deriving DecidableEq, Repr

/-- At most `n` turns of the loop of `find_mmap`, from slot `i` on. -/
def probe (t : MmapCache) (s : Stat) (start : Slot) : ℕ → Slot → Option Probe
  | 0, _ => none
  | n + 1, i =>
      if (t.list i).useCount = 0 then some (.empty i)
      else if (t.list i).Matches s then some (.found i)
      else if mmapListNext i = start then some .full
      else probe t s start n (mmapListNext i)

/-- The distance that the loop still has to go. -/
def probeLeft (start i : Slot) : ℕ := (start - mmapListNext i).val

lemma probeLeft_next {start i : Slot} (h : mmapListNext i ≠ start) :
    probeLeft start i = probeLeft start (mmapListNext i) + 1 := by
  have hne : start - mmapListNext i ≠ 0 := sub_ne_zero.mpr h.symm
  have hnext : start - mmapListNext (mmapListNext i) = start - mmapListNext i - 1 := by
    rw [mmapListNext, sub_add_eq_sub_sub]
  have hpos : 0 < (start - mmapListNext i).val := Nat.pos_of_ne_zero (Fin.val_ne_zero_iff.mpr hne)
  rw [probeLeft, probeLeft, hnext, Fin.val_sub_one_of_ne_zero hne]
  omega

/-- The loop ends when it has gone around the table. -/
lemma probe_isSome_of_left (t : MmapCache) (s : Stat) (start : Slot) (n : ℕ) (i : Slot)
    (h : probeLeft start i < n) : (probe t s start n i).isSome := by
  induction n generalizing i with
  | zero => omega
  | succ n ih =>
      unfold probe
      split_ifs with h0 hm hs
      · rfl
      · rfl
      · rfl
      · exact ih _ (by have := probeLeft_next hs; omega)

/-- **The loop of `find_mmap` ends** within as many turns as the table has slots, whatever
the table holds. -/
lemma probe_isSome (t : MmapCache) (s : Stat) (start : Slot) :
    (probe t s start mmapListSize start).isSome :=
  probe_isSome_of_left t s start mmapListSize start (start - mmapListNext start).isLt

/-- What the loop says is so. -/
lemma probe_spec {t : MmapCache} {s : Stat} {start : Slot} {n : ℕ} {i : Slot} {p : Probe}
    (h : probe t s start n i = some p) :
    (∀ j, p = .found j → (t.list j).useCount ≠ 0 ∧ (t.list j).Matches s) ∧
      ∀ j, p = .empty j → (t.list j).useCount = 0 := by
  induction n generalizing i with
  | zero => cases h
  | succ n ih =>
      unfold probe at h
      split_ifs at h with h0 hm hs
      · obtain rfl := Option.some.inj h
        exact ⟨nofun, fun j hj => Probe.empty.inj hj ▸ h0⟩
      · obtain rfl := Option.some.inj h
        exact ⟨fun j hj => Probe.found.inj hj ▸ ⟨h0, hm⟩, nofun⟩
      · obtain rfl := Option.some.inj h
        exact ⟨nofun, nofun⟩
      · exact ih h

/-! ### The operations -/

namespace MmapCache

/-- Writing an entry. -/
def set (t : MmapCache) (i : Slot) (e : MmapEntry) : MmapCache :=
  { t with list := Function.update t.list i e }

/-- The slots that are in use. -/
def inUse (t : MmapCache) : Finset Slot := Finset.univ.filter fun i => 0 < (t.list i).useCount

@[simp] lemma set_self (t : MmapCache) (i : Slot) (e : MmapEntry) : (t.set i e).list i = e :=
  Function.update_self ..

lemma set_of_ne (t : MmapCache) {i j : Slot} (e : MmapEntry) (h : j ≠ i) :
    (t.set i e).list j = t.list j :=
  Function.update_of_ne h ..

lemma inUse_set_pos (t : MmapCache) (i : Slot) {e : MmapEntry} (h : 0 < e.useCount) :
    (t.set i e).inUse = insert i t.inUse := by
  ext j
  rcases eq_or_ne j i with rfl | hj
  · simp [inUse, h]
  · simp [inUse, set_of_ne t e hj, hj]

lemma inUse_set_zero (t : MmapCache) (i : Slot) {e : MmapEntry} (h : e.useCount = 0) :
    (t.set i e).inUse = t.inUse.erase i := by
  ext j
  rcases eq_or_ne j i with rfl | hj
  · simp [inUse, h]
  · simp [inUse, set_of_ne t e hj, hj]

end MmapCache

/-- What `mmap` answers, an address or a failure, and whether `madvise` succeeds, as it does
where `HAVE_MADVISE` is not defined. -/
structure MmapAnswer where
  mmap : Option ℕ := none
  madvise : Bool := true

/-- The calls of the kernel, with the address and the length. -/
inductive MmapCall
  | mmap (addr len : ℕ)
  | munmap (addr len : ℕ)
  deriving DecidableEq, Repr

/-- `find_mmap`: the slot that it returns, the table and the calls made. -/
def findMmap (answer : MmapAnswer) (s : Stat) (t : MmapCache) :
    Option Slot × MmapCache × List MmapCall :=
  match (probe t s (mmapListHash s) mmapListSize (mmapListHash s)).get (probe_isSome ..) with
  | .found i =>
      (some i, t.set i { t.list i with useCount := (t.list i).useCount + 1 }, [])
  | .full => (none, t, [])
  | .empty i =>
      if mmapListUseMax < t.entriesUsed then (none, t, [])
      else
        match answer.mmap with
        | none => (none, t, [])
        | some m =>
            if answer.madvise = false then (none, t, [.mmap m s.size, .munmap m s.size])
            else
              (some i,
                { t.set i { dev := s.dev, ino := s.ino, len := s.size, mmap := m, useCount := 1 }
                  with entriesUsed := t.entriesUsed + 1 },
                [.mmap m s.size])

/-- `release_mmap`, with the calls made. -/
def releaseMmap (i : Slot) (t : MmapCache) : MmapCache × List MmapCall :=
  let e := t.list i
  if e.useCount = 0 then (t, [])
  else
    let t := t.set i { e with useCount := e.useCount - 1 }
    if e.useCount - 1 = 0 then
      ({ t with entriesUsed := t.entriesUsed - 1 }, [.munmap e.mmap e.len])
    else (t, [])

/-- What `find_mmap` can do: share an entry of the file, give up without a trace but for a
mapping made and unmade, or fill a free slot with a new mapping. -/
lemma findMmap_cases (answer : MmapAnswer) (s : Stat) (t : MmapCache) :
    (∃ i, (t.list i).useCount ≠ 0 ∧ (t.list i).Matches s ∧
      findMmap answer s t =
        (some i, t.set i { t.list i with useCount := (t.list i).useCount + 1 }, [])) ∨
    findMmap answer s t = (none, t, []) ∨
    (∃ m, answer.mmap = some m ∧ answer.madvise = false ∧
      findMmap answer s t = (none, t, [.mmap m s.size, .munmap m s.size])) ∨
    ∃ i m, (t.list i).useCount = 0 ∧ answer.mmap = some m ∧
      findMmap answer s t =
        (some i,
          { t.set i { dev := s.dev, ino := s.ino, len := s.size, mmap := m, useCount := 1 }
            with entriesUsed := t.entriesUsed + 1 },
          [.mmap m s.size]) := by
  have hp := probe_spec (Option.some_get
    (probe_isSome t s (mmapListHash s))).symm
  unfold findMmap
  generalize (probe t s (mmapListHash s) mmapListSize (mmapListHash s)).get _ = p at hp ⊢
  cases p with
  | found i => exact .inl ⟨i, (hp.1 i rfl).1, (hp.1 i rfl).2, rfl⟩
  | full => exact .inr (.inl rfl)
  | empty i =>
      by_cases hmax : mmapListUseMax < t.entriesUsed
      · exact .inr (.inl (if_pos hmax))
      · cases hm : answer.mmap with
        | none => exact .inr (.inl (if_neg hmax))
        | some m =>
            by_cases hadv : answer.madvise = false
            · exact .inr (.inr (.inl ⟨m, rfl, hadv, (if_neg hmax).trans (if_pos hadv)⟩))
            · exact .inr (.inr (.inr ⟨i, m, hp.2 i rfl, rfl,
                (if_neg hmax).trans (if_neg hadv)⟩))

/-- What `release_mmap` does with a slot in use. -/
lemma releaseMmap_cases {t : MmapCache} {i : Slot} (h : (t.list i).useCount ≠ 0) :
    ((t.list i).useCount = 1 ∧
      releaseMmap i t =
        ({ t.set i { t.list i with useCount := 0 } with entriesUsed := t.entriesUsed - 1 },
          [.munmap (t.list i).mmap (t.list i).len])) ∨
    (1 < (t.list i).useCount ∧
      releaseMmap i t =
        (t.set i { t.list i with useCount := (t.list i).useCount - 1 }, [])) := by
  unfold releaseMmap
  rw [if_neg h]
  by_cases h1 : (t.list i).useCount - 1 = 0
  · refine .inl ⟨by omega, ?_⟩
    rw [if_pos h1, h1]
    rfl
  · refine .inr ⟨by omega, ?_⟩
    rw [if_neg h1]

/-! ### The handles -/

/-- A handle that a request holds: the slot, and what the entry said when it was given out. -/
structure Handle where
  slot : Slot
  dev : ℕ
  ino : ℕ
  len : ℕ
  mmap : ℕ
  deriving DecidableEq, Repr

/-- The handle to a slot. -/
def MmapCache.handle (t : MmapCache) (i : Slot) : Handle :=
  ⟨i, (t.list i).dev, (t.list i).ino, (t.list i).len, (t.list i).mmap⟩

/-- The addresses that are mapped, after the calls. -/
def mappedAfter (l : List ℕ) (calls : List MmapCall) : List ℕ :=
  calls.foldl (fun l call =>
    match call with
    | .mmap m _ => m :: l
    | .munmap m _ => l.filter (· ≠ m)) l

/-- The table, the handles that are out and the addresses that are mapped for it. -/
structure MmapState where
  cache : MmapCache := {}
  handles : List Handle := []
  mapped : List ℕ := []

/-- What requests do: one asks for the mapping of a file, or `free_request` releases a
handle. -/
inductive MmapOp
  | find (s : Stat) (answer : MmapAnswer)
  | release (h : Handle)

namespace MmapState

/-- One operation. -/
def step (σ : MmapState) : MmapOp → MmapState
  | .find s answer =>
      match findMmap answer s σ.cache with
      | (slot, cache, calls) =>
          { cache := cache
            handles := (slot.map cache.handle).toList ++ σ.handles
            mapped := mappedAfter σ.mapped calls }
  | .release h =>
      match releaseMmap h.slot σ.cache with
      | (cache, calls) =>
          { cache := cache
            handles := σ.handles.erase h
            mapped := mappedAfter σ.mapped calls }

/-- The kernel maps where nothing is mapped, and a request releases a handle that it
holds. -/
def Legal (σ : MmapState) : MmapOp → Prop
  | .find _ answer => ∀ m ∈ answer.mmap, m ∉ σ.mapped
  | .release h => h ∈ σ.handles

/-- The counters, the contents of the slots, the handles and the mappings are in step. -/
structure Counted (σ : MmapState) : Prop where
  /-- `use_count` is the number of handles to the slot. -/
  uses : ∀ i, (σ.cache.list i).useCount = σ.handles.countP (·.slot = i)
  /-- `mmap_list_entries_used` is the number of slots in use. -/
  entries : σ.cache.entriesUsed = (σ.cache.inUse.card : ℤ)
  /-- The slot of a handle still says what it said when the handle was given out. -/
  kept : ∀ h ∈ σ.handles, σ.cache.handle h.slot = h
  /-- What is mapped is what there are handles to. -/
  mapped : ∀ m, m ∈ σ.mapped ↔ ∃ h ∈ σ.handles, h.mmap = m
  /-- No two slots share a mapping. -/
  apart : ∀ h ∈ σ.handles, ∀ h' ∈ σ.handles, h.mmap = h'.mmap → h.slot = h'.slot

/-- A slot in use has a handle. -/
lemma Counted.exists_handle {σ : MmapState} (hσ : σ.Counted) {i : Slot}
    (h : (σ.cache.list i).useCount ≠ 0) : ∃ h ∈ σ.handles, h.slot = i := by
  rw [hσ.uses i] at h
  obtain ⟨x, hx, hxi⟩ := List.countP_pos_iff.mp (Nat.pos_of_ne_zero h)
  exact ⟨x, hx, by simpa using hxi⟩

/-- A slot with a handle is in use. -/
lemma Counted.useCount_pos {σ : MmapState} (hσ : σ.Counted) {h : Handle}
    (hh : h ∈ σ.handles) : 0 < (σ.cache.list h.slot).useCount := by
  rw [hσ.uses h.slot]
  exact List.countP_pos_iff.mpr ⟨h, hh, by simp⟩

/-- Writing an entry whose device, inode, length and mapping stay. -/
lemma handle_set {t : MmapCache} {i : Slot} {e : MmapEntry}
    (h : (⟨i, e.dev, e.ino, e.len, e.mmap⟩ : Handle) = t.handle i) (j : Slot) :
    (t.set i e).handle j = t.handle j := by
  rcases eq_or_ne j i with rfl | hj
  · rw [← h, MmapCache.handle, MmapCache.set_self]
  · rw [MmapCache.handle, MmapCache.handle, MmapCache.set_of_ne t e hj]

/-- Another handle to an entry in use is given out. -/
lemma Counted.share {σ : MmapState} (hσ : σ.Counted) {i : Slot}
    (hi : (σ.cache.list i).useCount ≠ 0) :
    Counted ⟨σ.cache.set i { σ.cache.list i with useCount := (σ.cache.list i).useCount + 1 },
      σ.cache.handle i :: σ.handles, σ.mapped⟩ := by
  have hhandle := handle_set (t := σ.cache) (i := i)
    (e := { σ.cache.list i with useCount := (σ.cache.list i).useCount + 1 }) rfl
  obtain ⟨g, hg, hgi⟩ := hσ.exists_handle hi
  have hgk : σ.cache.handle i = g := hgi ▸ hσ.kept g hg
  rw [hgk]
  refine ⟨fun j => ?_, ?_, ?_, fun m => ?_, ?_⟩
  · rcases eq_or_ne j i with rfl | hj
    · simp [hσ.uses, hgi]
    · simp [MmapCache.set_of_ne _ _ hj, hσ.uses, hgi, hj.symm]
  · rw [MmapCache.inUse_set_pos _ _ (Nat.succ_pos _), Finset.insert_eq_self.mpr]
    · exact hσ.entries
    · simpa [MmapCache.inUse] using Nat.pos_of_ne_zero hi
  · intro x hx
    rw [hhandle]
    rcases List.mem_cons.mp hx with rfl | hx
    · exact hσ.kept x hg
    · exact hσ.kept x hx
  · rw [hσ.mapped m]
    simp only [List.mem_cons, exists_eq_or_imp]
    exact ⟨.inr, fun h => h.elim (fun h => ⟨g, hg, h⟩) id⟩
  · intro x hx y hy
    have hmem : ∀ z ∈ g :: σ.handles, z ∈ σ.handles := fun z hz =>
      (List.mem_cons.mp hz).elim (fun h => h ▸ hg) id
    exact hσ.apart x (hmem x hx) y (hmem y hy)

/-- A free slot is filled with a new mapping, and its first handle is given out. -/
lemma Counted.fill {σ : MmapState} (hσ : σ.Counted) {i : Slot}
    (hi : (σ.cache.list i).useCount = 0) {e : MmapEntry} (he : e.useCount = 1)
    (hm : e.mmap ∉ σ.mapped) :
    Counted ⟨{ σ.cache.set i e with entriesUsed := σ.cache.entriesUsed + 1 },
      ⟨i, e.dev, e.ino, e.len, e.mmap⟩ :: σ.handles, e.mmap :: σ.mapped⟩ := by
  have hslot : ∀ h ∈ σ.handles, h.slot ≠ i := fun h hh hhi =>
    (hσ.useCount_pos hh).ne' (hhi ▸ hi)
  have hnew : ∀ h ∈ σ.handles, h.mmap ≠ e.mmap := fun h hh hhm =>
    hm ((hσ.mapped e.mmap).mpr ⟨h, hh, hhm⟩)
  refine ⟨fun j => ?_, ?_, ?_, fun m => ?_, ?_⟩
  · rcases eq_or_ne j i with rfl | hj
    · have h0 := hσ.uses j
      rw [hi] at h0
      simp [he, ← h0]
    · simp [MmapCache.set_of_ne _ _ hj, hσ.uses, hj.symm]
  · have hin : i ∉ σ.cache.inUse := by simp [MmapCache.inUse, hi]
    have hcard : (σ.cache.set i e).inUse.card = σ.cache.inUse.card + 1 := by
      rw [MmapCache.inUse_set_pos _ _ (by omega), Finset.card_insert_of_notMem hin]
    show σ.cache.entriesUsed + 1 = ((σ.cache.set i e).inUse.card : ℤ)
    rw [hcard, hσ.entries]
    push_cast
    rfl
  · intro x hx
    rcases List.mem_cons.mp hx with rfl | hx
    · simp [MmapCache.handle]
    · have hk := hσ.kept x hx
      simp only [MmapCache.handle] at hk ⊢
      rw [MmapCache.set_of_ne _ _ (hslot x hx)]
      exact hk
  · simp only [List.mem_cons, exists_eq_or_imp, hσ.mapped m, eq_comm]
  · intro x hx y hy hxy
    rcases List.mem_cons.mp hx with rfl | hx <;> rcases List.mem_cons.mp hy with rfl | hy
    · rfl
    · exact absurd hxy.symm (hnew y hy)
    · exact absurd hxy (hnew x hx)
    · exact hσ.apart x hx y hy hxy

/-- What is left of the handles to a slot when one of them is released. -/
lemma countP_erase {l : List Handle} {h : Handle} (hh : h ∈ l) (j : Slot) :
    (l.erase h).countP (·.slot = j) = l.countP (·.slot = j) - if h.slot = j then 1 else 0 := by
  rw [List.countP_erase]
  simp [hh]

/-- A handle that shares its mapping with another one. -/
lemma Counted.exists_other {σ : MmapState} (hσ : σ.Counted) {h : Handle} (hh : h ∈ σ.handles)
    (hi : 1 < (σ.cache.list h.slot).useCount) : ∃ g ∈ σ.handles.erase h, g.mmap = h.mmap := by
  have hcount := countP_erase hh h.slot
  rw [if_pos rfl, ← hσ.uses h.slot] at hcount
  have hpos : 0 < (σ.handles.erase h).countP (·.slot = h.slot) := by omega
  obtain ⟨g, hg, hgs⟩ := List.countP_pos_iff.mp hpos
  have hgk := hσ.kept g (List.mem_of_mem_erase hg)
  rw [of_decide_eq_true hgs, hσ.kept h hh] at hgk
  exact ⟨g, hg, by rw [hgk]⟩

/-- A handle is released that is not the last one to its slot. -/
lemma Counted.unshare {σ : MmapState} (hσ : σ.Counted) {h : Handle} (hh : h ∈ σ.handles)
    (hi : 1 < (σ.cache.list h.slot).useCount) :
    Counted ⟨σ.cache.set h.slot
        { σ.cache.list h.slot with useCount := (σ.cache.list h.slot).useCount - 1 },
      σ.handles.erase h, σ.mapped⟩ := by
  have hhandle := handle_set (t := σ.cache) (i := h.slot)
    (e := { σ.cache.list h.slot with useCount := (σ.cache.list h.slot).useCount - 1 }) rfl
  refine ⟨fun j => ?_, ?_, ?_, fun m => ?_, ?_⟩
  · rw [countP_erase hh j]
    rcases eq_or_ne j h.slot with rfl | hj
    · simp [hσ.uses]
    · simp [MmapCache.set_of_ne _ _ hj, hσ.uses, hj.symm]
  · have hpos : 0 < (σ.cache.list h.slot).useCount - 1 := Nat.sub_pos_of_lt hi
    rw [MmapCache.inUse_set_pos _ _ hpos, Finset.insert_eq_self.mpr]
    · exact hσ.entries
    · simpa [MmapCache.inUse] using Nat.zero_lt_of_lt hi
  · intro x hx
    rw [hhandle]
    exact hσ.kept x (List.mem_of_mem_erase hx)
  · rw [hσ.mapped m]
    constructor
    · rintro ⟨x, hx, rfl⟩
      rcases eq_or_ne x h with rfl | hxh
      · exact hσ.exists_other hh hi
      · exact ⟨x, (List.mem_erase_of_ne hxh).mpr hx, rfl⟩
    · rintro ⟨x, hx, hxm⟩
      exact ⟨x, List.mem_of_mem_erase hx, hxm⟩
  · exact fun x hx y hy =>
      hσ.apart x (List.mem_of_mem_erase hx) y (List.mem_of_mem_erase hy)

/-- The last handle to a slot is the only one. -/
lemma Counted.last {σ : MmapState} (hσ : σ.Counted) {h : Handle} (hh : h ∈ σ.handles)
    (hi : (σ.cache.list h.slot).useCount = 1) : ∀ x ∈ σ.handles.erase h, x.slot ≠ h.slot := by
  have hcount := countP_erase hh h.slot
  rw [if_pos rfl, ← hσ.uses h.slot, hi] at hcount
  intro x hx hxs
  exact Nat.not_lt_zero _ (hcount ▸ List.countP_pos_iff.mpr ⟨x, hx, by simpa using hxs⟩)

/-- The last handle to a slot is released. -/
lemma Counted.drop {σ : MmapState} (hσ : σ.Counted) {h : Handle} (hh : h ∈ σ.handles)
    (hi : (σ.cache.list h.slot).useCount = 1) :
    Counted ⟨{ σ.cache.set h.slot { σ.cache.list h.slot with useCount := 0 } with
        entriesUsed := σ.cache.entriesUsed - 1 },
      σ.handles.erase h, σ.mapped.filter (· ≠ (σ.cache.list h.slot).mmap)⟩ := by
  have hlast := hσ.last hh hi
  have hmm : (σ.cache.list h.slot).mmap = h.mmap := congrArg Handle.mmap (hσ.kept h hh)
  refine ⟨fun j => ?_, ?_, ?_, fun m => ?_, ?_⟩
  · rw [countP_erase hh j]
    rcases eq_or_ne j h.slot with rfl | hj
    · simp [← hσ.uses, hi]
    · simp [MmapCache.set_of_ne _ _ hj, hσ.uses, hj.symm]
  · have hin : h.slot ∈ σ.cache.inUse := by simp [MmapCache.inUse, hi]
    have hcard := Finset.card_erase_add_one hin
    show σ.cache.entriesUsed - 1 = ((σ.cache.set h.slot _).inUse.card : ℤ)
    rw [MmapCache.inUse_set_zero _ _ rfl, hσ.entries, ← hcard]
    push_cast
    ring
  · intro x hx
    have hk := hσ.kept x (List.mem_of_mem_erase hx)
    simp only [MmapCache.handle] at hk ⊢
    rw [MmapCache.set_of_ne _ _ (hlast x hx)]
    exact hk
  · rw [hmm, List.mem_filter, hσ.mapped m]
    constructor
    · rintro ⟨⟨x, hx, rfl⟩, hxh⟩
      have hne : x ≠ h := fun hxe => by simp [hxe] at hxh
      exact ⟨x, (List.mem_erase_of_ne hne).mpr hx, rfl⟩
    · rintro ⟨x, hx, rfl⟩
      have hxm := List.mem_of_mem_erase hx
      exact ⟨⟨x, hxm, rfl⟩, by
        simpa using fun hxh => hlast x hx (hσ.apart x hxm h hh hxh)⟩
  · exact fun x hx y hy =>
      hσ.apart x (List.mem_of_mem_erase hx) y (List.mem_of_mem_erase hy)

/-! ### Runs -/

/-- **One operation** keeps the counters, the slots, the handles and the mappings in
step. -/
lemma Counted.step {σ : MmapState} (hσ : σ.Counted) {op : MmapOp} (hop : σ.Legal op) :
    (σ.step op).Counted := by
  cases op with
  | find s answer =>
      rcases findMmap_cases answer s σ.cache with
        ⟨i, hi, -, heq⟩ | heq | ⟨m, hm, -, heq⟩ | ⟨i, m, hi, hm, heq⟩
      · have h := hσ.share hi
        rw [← handle_set (t := σ.cache) (i := i)
          (e := { σ.cache.list i with useCount := (σ.cache.list i).useCount + 1 }) rfl i] at h
        rw [MmapState.step, heq]
        exact h
      · rw [MmapState.step, heq]
        exact hσ
      · have hmap : (m :: σ.mapped).filter (· ≠ m) = σ.mapped := by
          have hne : ∀ x ∈ σ.mapped, x ≠ m := fun x hx hxm => hop m hm (hxm ▸ hx)
          simpa using hne
        rw [MmapState.step, heq]
        simp only [Option.map_none, Option.toList_none, List.nil_append, mappedAfter,
          List.foldl_cons, List.foldl_nil, hmap]
        exact hσ
      · have h := hσ.fill hi (e := ⟨s.dev, s.ino, m, 1, s.size⟩) rfl (hop m hm)
        rw [MmapState.step, heq]
        simpa [MmapCache.handle, mappedAfter] using h
  | release h =>
      rcases releaseMmap_cases (hσ.useCount_pos hop).ne' with ⟨hi, heq⟩ | ⟨hi, heq⟩
      · rw [MmapState.step, heq]
        exact hσ.drop hop hi
      · rw [MmapState.step, heq]
        exact hσ.unshare hop hi

/-- Nothing is out and nothing is mapped when the server starts. -/
lemma counted_empty : Counted {} :=
  ⟨fun _ => rfl, by simp [MmapCache.inUse], nofun, fun _ => by simp, nofun⟩

lemma counted_runs (ops : List MmapOp) (hops : Run.Allowed step Legal {} ops) :
    (Run.runs step {} ops).Counted := by
  have hstep : ∀ (σ : MmapState) op, σ.Counted → σ.Legal op → (σ.step op).Counted :=
    fun _ _ hσ hop => hσ.step hop
  exact Run.runs_invariant hstep ops _ counted_empty hops

/-- A handle that is out keeps its slot as it is, whatever is done. -/
lemma Counted.step_kept {σ : MmapState} (hσ : σ.Counted) {op : MmapOp} (hop : σ.Legal op)
    {h : Handle} (hh : h ∈ σ.handles) (hh' : h ∈ (σ.step op).handles) :
    (σ.step op).cache.handle h.slot = σ.cache.handle h.slot := by
  rw [(hσ.step hop).kept h hh', hσ.kept h hh]

/-- `find_mmap` returns a slot of the file. -/
lemma findMmap_matches {answer : MmapAnswer} {s : Stat} {t : MmapCache} {i : Slot}
    (h : (findMmap answer s t).1 = some i) : ((findMmap answer s t).2.1.list i).Matches s := by
  rcases findMmap_cases answer s t with
    ⟨j, -, hj, heq⟩ | heq | ⟨m, -, -, heq⟩ | ⟨j, m, -, -, heq⟩ <;> rw [heq] at h ⊢
  · obtain rfl := Option.some.inj h
    rw [MmapCache.set_self]
    exact hj
  · cases h
  · cases h
  · obtain rfl := Option.some.inj h
    show ((t.set j _).list j).Matches s
    rw [MmapCache.set_self]
    exact ⟨rfl, rfl, rfl⟩

/-- `find_mmap` unmaps no mapping that there is a handle to. -/
lemma Counted.find_keeps {σ : MmapState} (hσ : σ.Counted) {answer : MmapAnswer} {s : Stat}
    (hop : σ.Legal (.find s answer)) {h : Handle} (hh : h ∈ σ.handles) (len : ℕ) :
    .munmap h.mmap len ∉ (findMmap answer s σ.cache).2.2 := by
  rcases findMmap_cases answer s σ.cache with
    ⟨j, -, -, heq⟩ | heq | ⟨m, hm, -, heq⟩ | ⟨j, m, -, -, heq⟩ <;> rw [heq]
  · simp
  · simp
  · have hne : h.mmap ≠ m := fun he => hop m hm (he ▸ (hσ.mapped h.mmap).mpr ⟨h, hh, rfl⟩)
    simp [hne]
  · simp

/-- `release_mmap` unmaps the mapping exactly when the handle is the last one to it. -/
lemma Counted.release_unmaps {σ : MmapState} (hσ : σ.Counted) {h : Handle}
    (hh : h ∈ σ.handles) (call : MmapCall) :
    call ∈ (releaseMmap h.slot σ.cache).2 ↔
      call = .munmap h.mmap h.len ∧ ∀ g ∈ σ.handles.erase h, g.mmap ≠ h.mmap := by
  have hk := hσ.kept h hh
  rcases releaseMmap_cases (hσ.useCount_pos hh).ne' with ⟨hi, heq⟩ | ⟨hi, heq⟩ <;> rw [heq]
  · have hmm : (σ.cache.list h.slot).mmap = h.mmap := congrArg Handle.mmap hk
    have hlen : (σ.cache.list h.slot).len = h.len := congrArg Handle.len hk
    have hlast : ∀ g ∈ σ.handles.erase h, g.mmap ≠ h.mmap := fun g hg he =>
      hσ.last hh hi g hg (hσ.apart g (List.mem_of_mem_erase hg) h hh he)
    rw [hmm, hlen, List.mem_singleton]
    exact ⟨fun h => ⟨h, hlast⟩, And.left⟩
  · obtain ⟨g, hg, hgm⟩ := hσ.exists_other hh hi
    exact ⟨nofun, fun h => absurd hgm (h.2 g hg)⟩

/-- **The mapping cache counts its references.** After any legal run of `find_mmap` and
`release_mmap` the counters, the slots, the handles and the mappings agree; whatever comes
next leaves the slots of the handles as they are; `find_mmap` returns slots of the file
only and unmaps nothing that there is a handle to; `release_mmap` unmaps exactly with the
last handle; and the loop over the table ends, even over a table that is full. -/
theorem mmapCache_counts (ops : List MmapOp) (hops : Run.Allowed step Legal {} ops) :
    (Run.runs step {} ops).Counted ∧
      (∀ op, (Run.runs step {} ops).Legal op → ∀ h ∈ (Run.runs step {} ops).handles,
        h ∈ ((Run.runs step {} ops).step op).handles →
          ((Run.runs step {} ops).step op).cache.handle h.slot =
            (Run.runs step {} ops).cache.handle h.slot) ∧
      (∀ answer s i, (findMmap answer s (Run.runs step {} ops).cache).1 = some i →
        ((findMmap answer s (Run.runs step {} ops).cache).2.1.list i).Matches s) ∧
      (∀ answer s, (Run.runs step {} ops).Legal (.find s answer) →
        ∀ h ∈ (Run.runs step {} ops).handles, ∀ len,
          .munmap h.mmap len ∉ (findMmap answer s (Run.runs step {} ops).cache).2.2) ∧
      (∀ h ∈ (Run.runs step {} ops).handles, ∀ call,
        call ∈ (releaseMmap h.slot (Run.runs step {} ops).cache).2 ↔
          call = .munmap h.mmap h.len ∧
            ∀ g ∈ (Run.runs step {} ops).handles.erase h, g.mmap ≠ h.mmap) ∧
      ∀ t s, (probe t s (mmapListHash s) mmapListSize (mmapListHash s)).isSome := by
  have hσ := counted_runs ops hops
  refine ⟨hσ, ?_, ?_, ?_, ?_, ?_⟩
  · exact fun op hop h hh hh' => hσ.step_kept hop hh hh'
  · exact fun answer s i h => findMmap_matches h
  · exact fun answer s hop h hh len => hσ.find_keeps hop hh len
  · exact fun h hh call => hσ.release_unmaps hh call
  · exact fun t s => probe_isSome t s (mmapListHash s)

/-- Two requests share a mapping, a third file hashes to the same slot, and the first
mapping is released. -/
theorem mmapCache_counts_shared :
    Run.Allowed step Legal {}
        [.find ⟨.regular, 5, 0, 1, 7⟩ ⟨some 1000, true⟩,
          .find ⟨.regular, 5, 0, 1, 7⟩ ⟨none, true⟩,
          .find ⟨.regular, 9, 0, 1, 263⟩ ⟨some 2000, true⟩,
          .release ⟨7, 1, 7, 5, 1000⟩, .release ⟨7, 1, 7, 5, 1000⟩] ∧
      (Run.runs step {}
        [.find ⟨.regular, 5, 0, 1, 7⟩ ⟨some 1000, true⟩,
          .find ⟨.regular, 5, 0, 1, 7⟩ ⟨none, true⟩,
          .find ⟨.regular, 9, 0, 1, 263⟩ ⟨some 2000, true⟩,
          .release ⟨7, 1, 7, 5, 1000⟩, .release ⟨7, 1, 7, 5, 1000⟩]).Counted := by
  have hops : Run.Allowed step Legal {}
      [.find ⟨.regular, 5, 0, 1, 7⟩ ⟨some 1000, true⟩,
        .find ⟨.regular, 5, 0, 1, 7⟩ ⟨none, true⟩,
        .find ⟨.regular, 9, 0, 1, 263⟩ ⟨some 2000, true⟩,
        .release ⟨7, 1, 7, 5, 1000⟩, .release ⟨7, 1, 7, 5, 1000⟩] := by
    simp only [Run.Allowed, Legal]
    decide
  exact ⟨hops, (mmapCache_counts _ hops).1⟩

end MmapState

end Yabwf
