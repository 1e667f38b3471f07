import Yabwf.Poll

/-!
What the tables of `poll.c` hold, over the runs of the loop.

* `Loop.Sound`: the requests that are blocked hold the first entries of the table.
* `Loop.Sound.step`: every step keeps that, provided that there is room for the listening socket,
  and that `sigterm_stage1_run` is not followed by the removal of a slot of a blocked request.
-/

namespace Yabwf

namespace Loop

open Linked Slots

/-- The descriptors and events of the table in use. -/
def entries (s : Loop) (i : ℕ) : ℤ × ℕ := (s.pfds i).watched

/-- The descriptors and events of the other table. -/
def otherEntries (s : Loop) (i : ℕ) : ℤ × ℕ := (s.pfd1 (!s.which) i).watched

/-- The table begins with the slots of the blocked requests, and holds `n` entries for the listening
socket behind them. Without the proposition `P` only the lengths are known. -/
structure Filled (P : Prop) (s : Loop) (b : List Addr) (n : ℕ) : Prop where
  le : s.pfdLen ≤ b.length + n
  eq : s.sigtermFlag < 2 → s.pfdLen = b.length + n
  room : b.length + n ≤ maxFd
  holds : P → Holds s.entries s.pollfdId s.armed b ∧ b.length ≤ s.pfdLen

/-- `update_blocked` stands between the requests that it has dealt with and the others. -/
structure Moving (P : Prop) (s : Loop) (b : List Addr) (current : Option Addr)
    (done todo : List Addr) : Prop where
  split : b = done ++ todo
  current_eq : current = todo.head?
  len : s.pfdLen = done.length
  interrupts : s.interrupts = 0
  done : P → Holds s.otherEntries s.pollfdId s.armed done
  todo : P → ∀ a ∈ todo, s.entries (s.pollfdId a) = s.armed a

/-- The table holds the slots of the blocked requests only. -/
structure Packed (P : Prop) (s : Loop) (b : List Addr) : Prop where
  len : s.pfdLen = b.length
  interrupts : s.interrupts = 0
  holds : P → Holds s.entries s.pollfdId s.armed b

/-- How often the listening socket stands in the table when `poll` is called. -/
def listening (s : Loop) : ℕ := if s.watchServer then s.interrupts + 1 else s.interrupts

/-- What the table holds where the loop stands. -/
def InPhase (P : Prop) (s : Loop) (b : List Addr) : Prop :=
  match s.phase with
  | .signals | .arm => s.Filled P b s.interrupts
  | .poll | .polled =>
      s.Filled P b s.listening ∧
        (s.watchServer = true → s.server.total ≤ (fdSetsize - 20 : ℕ))
  | .update current => ∃ done todo, s.Moving P b current done todo
  | .requests => s.Packed P b
  | .exited => True

/-- The loop has stayed inside its tables, and they hold the slots of the blocked requests. -/
structure Sound (P : Prop) (s : Loop) (r b f : List Addr) : Prop where
  inside : s.overrun = false
  lists : s.server.Lists (fdSetsize - 20) r b f
  stopped : 2 ≤ s.sigtermFlag → s.watchServer = false
  phase : s.InPhase P b

/-- There is room for the listening socket: the blocked requests and the interruptions of `poll`
in a row leave a slot. -/
def RoomForServer (s : Loop) : Op → Prop
  | .sigterm => True
  | .go _ => s.phase = .arm → s.sigtermFlag = 0 → s.server.total < s.settings.limit →
      ∀ b, Represents s.server.mem s.server.block b → b.length + s.interrupts < maxFd

/-- Where `SIGTERM` is noticed, `server_pfd` is not one of the slots of the blocked requests. -/
def KeepsSlots (s : Loop) : Op → Prop
  | .sigterm => True
  | .go _ => s.phase = .arm → s.sigtermFlag = 1 →
      ∀ b, Represents s.server.mem s.server.block b → b.length ≤ s.serverPfd

variable {P : Prop} {s : Loop} {a : Addr} {r b f : List Addr}

/-- There are fewer blocked requests than slots. -/
lemma length_lt_maxFd (h : s.server.Lists (fdSetsize - 20) r b f) : b.length < maxFd := by
  have htotal := h.total
  have hbound := h.bound
  simp only [fdSetsize] at hbound
  simp only [maxFd, fdSetsize]
  omega

lemma store_of_lt {i : ℕ} (h : i < maxFd) (table : Bool) (w : ℤ × ℕ) (s : Loop) :
    s.store table i w = { s with
      pfd1 := Function.update s.pfd1 table (Function.update (s.pfd1 table) i
        { s.pfd1 table i with fd := w.1, events := w.2 }) } := if_pos h

/-- A store into one of the tables changes one entry of it. -/
lemma entries_store {i : ℕ} (h : i < maxFd) (w : ℤ × ℕ) (s : Loop) :
    (s.store s.which i w).entries = Function.update s.entries i w := by
  funext k
  rw [store_of_lt h]
  by_cases hk : k = i
  · subst hk
    simp [entries, pfds, Pollfd.watched]
  · simp [entries, pfds, hk]

lemma otherEntries_store {i : ℕ} (h : i < maxFd) (w : ℤ × ℕ) (s : Loop) :
    (s.store (!s.which) i w).otherEntries = Function.update s.otherEntries i w := by
  funext k
  rw [store_of_lt h]
  by_cases hk : k = i
  · subst hk
    simp [otherEntries, Pollfd.watched]
  · simp [otherEntries, hk]

/-- A store into the other table leaves the table in use alone. -/
lemma entries_store_other {i : ℕ} (h : i < maxFd) (w : ℤ × ℕ) (s : Loop) :
    (s.store (!s.which) i w).entries = s.entries := by
  funext k
  rw [store_of_lt h]
  simp [entries, pfds]

lemma entries_watched (i : ℕ) (s : Loop) : (s.pfds i).watched = s.entries i := rfl

lemma pollfdId_setPollfdId (a : Addr) (i : ℕ) (s : Loop) :
    (s.setPollfdId a i).pollfdId = Function.update s.pollfdId a i := by
  funext x
  by_cases hx : x = a
  · subst hx
    simp [pollfdId, setPollfdId, Server.setConn]
  · simp [pollfdId, setPollfdId, Server.setConn, hx]

/-! ### The steps on the table -/

/-- **`BOA_FD_SET`** gives the request that has just been blocked the next slot. -/
lemma Packed.boaFdSet (h : s.Packed P b) (ha : a ∉ b) (hlt : b.length < maxFd) (w : ℤ × ℕ) :
    (s.boaFdSet a w).Packed P (a :: b) := by
  have hlt' : s.pfdLen < maxFd := h.len ▸ hlt
  refine ⟨?_, ?_, fun hP => ?_⟩
  · rw [Loop.boaFdSet, store_of_lt hlt', List.length_cons, ← h.len]
    rfl
  · rw [Loop.boaFdSet, store_of_lt hlt']
    exact h.interrupts
  · have hpush := (h.holds hP).push ha w
    rw [← h.len] at hpush
    have hentries : (s.boaFdSet a w).entries = Function.update s.entries s.pfdLen w :=
      entries_store hlt' w (s.setPollfdId a s.pfdLen)
    have hid : (s.boaFdSet a w).pollfdId = Function.update s.pollfdId a s.pfdLen := by
      rw [← pollfdId_setPollfdId, Loop.boaFdSet, store_of_lt hlt']
      rfl
    have harmed : (s.boaFdSet a w).armed = Function.update s.armed a w := by
      rw [Loop.boaFdSet, store_of_lt hlt']
      rfl
    rw [hentries, hid, harmed]
    exact hpush

/-- What `BOA_FD_SET` leaves alone. -/
lemma boaFdSet_rest (hlt : s.pfdLen < maxFd) (a : Addr) (w : ℤ × ℕ) :
    (s.boaFdSet a w).overrun = s.overrun ∧ (s.boaFdSet a w).phase = s.phase ∧
      (s.boaFdSet a w).sigtermFlag = s.sigtermFlag ∧
      (s.boaFdSet a w).watchServer = s.watchServer ∧
      (s.boaFdSet a w).server = (s.setPollfdId a s.pfdLen).server := by
  rw [Loop.boaFdSet, store_of_lt hlt]
  exact ⟨rfl, rfl, rfl, rfl, rfl⟩

/-- The compaction writes into the other table only, moves the entries behind `server_pfd` forward
and copies those in front of it. -/
lemma removeServerPfd_eq (s : Loop) {n : ℕ} (hn : n ≤ maxFd) :
    ∃ T, s.removeServerPfd n = ({ s with pfd1 := Function.update s.pfd1 (!s.which) T },
        if s.serverPfd < n then n - 1 else n) ∧
      ∀ i < n, i < s.serverPfd → (T i).watched = (s.pfds i).watched := by
  induction n with
  | zero => exact ⟨s.pfd1 (!s.which), by simp [removeServerPfd], by simp⟩
  | succ n ih =>
      obtain ⟨T, heq, hT⟩ := ih (by omega)
      rw [removeServerPfd, heq]
      dsimp only
      by_cases hi : n = s.serverPfd
      · refine ⟨T, ?_, fun i hin his => hT i (by omega) his⟩
        rw [if_pos hi, if_neg (by omega), if_pos (by omega), Nat.add_sub_cancel]
      · have hlt : (if s.serverPfd < n then n - 1 else n) < maxFd := by
          split_ifs <;> omega
        rw [if_neg hi, store_of_lt hlt]
        refine ⟨Function.update T (if s.serverPfd < n then n - 1 else n)
          { T (if s.serverPfd < n then n - 1 else n) with
            fd := (s.pfds n).watched.1, events := (s.pfds n).watched.2 }, ?_, ?_⟩
        · simp only [Function.update_self, Function.update_idem, Prod.mk.injEq, true_and]
          split_ifs <;> omega
        · intro i hin his
          by_cases hit : i = if s.serverPfd < n then n - 1 else n
          · -- only the entry that is not behind `server_pfd` is looked at here
            have hni : n = i := by
              split_ifs at hit <;> omega
            rw [← hit, Function.update_self, ← hni]
            rfl
          · rw [Function.update_of_ne hit]
            refine hT i ?_ his
            split_ifs at hit <;> omega

/-! ### The steps of the loop -/

lemma Sound.filled (h : s.Sound P r b f) (hphase : s.phase = .signals ∨ s.phase = .arm) :
    s.Filled P b s.interrupts := by
  have hin := h.phase
  rw [InPhase] at hin
  rcases hphase with hphase | hphase <;> rwa [hphase] at hin

lemma Sound.listening (h : s.Sound P r b f) (hphase : s.phase = .poll ∨ s.phase = .polled) :
    s.Filled P b s.listening ∧
      (s.watchServer = true → s.server.total ≤ (fdSetsize - 20 : ℕ)) := by
  have hin := h.phase
  rw [InPhase] at hin
  rcases hphase with hphase | hphase <;> rwa [hphase] at hin

lemma Sound.moving (h : s.Sound P r b f) {current : Option Addr}
    (hphase : s.phase = .update current) : ∃ done todo, s.Moving P b current done todo := by
  have hin := h.phase
  rwa [InPhase, hphase] at hin

lemma Sound.packed (h : s.Sound P r b f) (hphase : s.phase = .requests) : s.Packed P b := by
  have hin := h.phase
  rwa [InPhase, hphase] at hin

lemma Packed.inPhase (h : s.Packed P b) (hphase : s.phase = .requests) : s.InPhase P b := by
  rwa [InPhase, hphase]

/-- The signals other than `SIGTERM` leave the table alone. -/
lemma Sound.signals (h : s.Sound P r b f) (hphase : s.phase = .signals)
    (hangup : Option LoopSettings) :
    ∃ f', Sound P { (match hangup with
      | some set => s.sighupRun set
      | none => s) with phase := .arm } r b f' := by
  obtain ⟨hle, heq, hroom, hholds⟩ := h.filled (Or.inl hphase)
  cases hangup with
  | none => exact ⟨f, h.inside, h.lists, h.stopped, hle, heq, hroom, hholds⟩
  | some set => exact ⟨[], h.inside, h.lists.freeRequests, h.stopped, hle, heq, hroom, hholds⟩

/-- `poll` is about to be called. -/
lemma Sound.toPoll (h : s.Sound P r b f) (hfilled : s.Filled P b s.listening)
    (htotal : s.watchServer = true → s.server.total ≤ (fdSetsize - 20 : ℕ)) :
    Sound P { s with phase := .poll, server := { s.server with pending := false } } r b f where
  inside := h.inside
  lists := ⟨h.lists.shape, h.lists.total, h.lists.bound, nofun, h.lists.current⟩
  stopped := h.stopped
  phase := ⟨⟨hfilled.le, hfilled.eq, hfilled.room, hfilled.holds⟩, htotal⟩

/-- Noticing `SIGTERM` removes no slot of a blocked request if `server_pfd` is none of them. -/
lemma Sound.sigtermStage1 (h : s.Sound P r b f) (hphase : s.phase = .arm)
    (hflag : s.sigtermFlag = 1) (hkeeps : P → b.length ≤ s.serverPfd) :
    s.sigtermStage1.Sound P r b f ∧ s.sigtermStage1.Filled P b s.sigtermStage1.listening := by
  have hfilled := h.filled (Or.inr hphase)
  have hlen : s.pfdLen = b.length + s.interrupts := hfilled.eq (by omega)
  obtain ⟨T, heq, hT⟩ := removeServerPfd_eq { s with sigtermFlag := 2, serverS := -1 }
    (n := s.pfdLen) (hlen ▸ hfilled.room)
  have hroom := hfilled.room
  have hnew : s.sigtermStage1.Filled P b s.interrupts := by
    rw [Loop.sigtermStage1, heq]
    refine ⟨?_, fun hlt => absurd hlt (lt_irrefl 2), hfilled.room, fun hP => ⟨?_, ?_⟩⟩
    · show (if s.serverPfd < s.pfdLen then s.pfdLen - 1 else s.pfdLen) ≤ b.length + s.interrupts
      split_ifs <;> omega
    · refine (hfilled.holds hP).1.congr (fun i hi => ?_) (fun _ _ => rfl) (fun _ _ => rfl)
      have hi' : i < s.serverPfd := hi.trans_le (hkeeps hP)
      simpa [entries, pfds] using hT i (by omega) hi'
    · have hserver := hkeeps hP
      show b.length ≤ (if s.serverPfd < s.pfdLen then s.pfdLen - 1 else s.pfdLen)
      split_ifs <;> omega
  have hrest : s.sigtermStage1.overrun = false ∧ s.sigtermStage1.server = s.server ∧
      s.sigtermStage1.watchServer = false ∧ s.sigtermStage1.phase = .arm ∧
      s.sigtermStage1.interrupts = s.interrupts := by
    rw [Loop.sigtermStage1, heq]
    exact ⟨h.inside, rfl, rfl, hphase, rfl⟩
  obtain ⟨hinside, hserver, hwatch, hphase', hinter⟩ := hrest
  have hlistening : s.sigtermStage1.listening = s.interrupts := by
    rw [Loop.listening, hwatch, ← hinter]
    rfl
  refine ⟨⟨hinside, hserver ▸ h.lists, fun _ => hwatch, ?_⟩, hlistening.symm ▸ hnew⟩
  rw [InPhase, hphase', hinter]
  exact hnew

/-- The listening socket gets the slot behind those of the blocked requests. -/
lemma Filled.addServer {n : ℕ} (h : s.Filled P b n) (hlt : b.length + n < maxFd)
    (hflag : s.sigtermFlag = 0) (w : ℤ × ℕ) :
    Filled P { s.store s.which s.pfdLen w with
      serverPfd := s.pfdLen, pfdLen := s.pfdLen + 1, watchServer := true } b (n + 1) := by
  have hlen : s.pfdLen = b.length + n := h.eq (by omega)
  have hlt' : s.pfdLen < maxFd := hlen ▸ hlt
  refine ⟨?_, fun _ => ?_, by omega, fun hP => ⟨?_, ?_⟩⟩
  · show s.pfdLen + 1 ≤ b.length + (n + 1)
    omega
  · show s.pfdLen + 1 = b.length + (n + 1)
    omega
  · refine (h.holds hP).1.congr (fun i hi => ?_) (fun x _ => ?_) (fun x _ => ?_)
    · have hentries := congrFun (entries_store hlt' w s) i
      rw [Function.update_of_ne (show i ≠ s.pfdLen by omega)] at hentries
      exact hentries
    · rw [store_of_lt hlt']
      rfl
    · rw [store_of_lt hlt']
  · show b.length ≤ s.pfdLen + 1
    omega

/-- The part between the signals and `poll`, where there is room for the listening socket. -/
lemma Sound.armServer (h : s.Sound P r b f) (hphase : s.phase = .arm)
    (hroom : s.sigtermFlag = 0 → s.server.total < s.settings.limit →
      b.length + s.interrupts < maxFd)
    (hkeeps : P → s.sigtermFlag = 1 → b.length ≤ s.serverPfd) :
    s.armServer.Sound P r b f := by
  have hfilled := h.filled (Or.inr hphase)
  have htotal : s.server.total < s.settings.limit → s.server.total ≤ (fdSetsize - 20 : ℕ) :=
    fun hlt => hlt.le.trans (Int.ofNat_le.mpr s.settings.limit_le)
  -- what is left once the flag has been looked at
  have hlast : ∀ e : Loop, e.Sound P r b f → e.Filled P b e.listening → e.watchServer = false →
      Sound P (if e.sigtermFlag = 2 ∧ e.server.ready = none ∧ e.server.block = none then
        { e with phase := .exited }
      else { e with phase := .poll, server := { e.server with pending := false } }) r b f := by
    intro e he hfill hwatch
    split_ifs
    · exact ⟨he.inside, he.lists, he.stopped, trivial⟩
    · exact he.toPoll hfill fun hw => absurd (hwatch ▸ hw) Bool.false_ne_true
  rw [Loop.armServer]
  by_cases hzero : s.sigtermFlag = 0
  · rw [if_neg (not_not.mpr hzero)]
    dsimp only
    by_cases hlt : s.server.total < s.settings.limit
    · have hroom' := hroom hzero hlt
      have hadded := hfilled.addServer hroom' hzero (s.serverS, boaRead)
      have hlt' : s.pfdLen < maxFd := by
        rw [hfilled.eq (by omega)]
        exact hroom'
      rw [if_pos hlt]
      rw [store_of_lt hlt'] at hadded ⊢
      exact ⟨h.inside, ⟨h.lists.shape, h.lists.total, h.lists.bound, nofun, h.lists.current⟩,
        fun htwo => absurd (hzero ▸ htwo) (by decide),
        ⟨hadded.le, hadded.eq, hadded.room, hadded.holds⟩, fun _ => htotal hlt⟩
    · rw [if_neg hlt]
      exact ⟨h.inside, ⟨h.lists.shape, h.lists.total, h.lists.bound, nofun, h.lists.current⟩,
        fun _ => rfl, ⟨hfilled.le, hfilled.eq, hfilled.room, hfilled.holds⟩, nofun⟩
  · rw [if_pos hzero]
    dsimp only
    by_cases hone : s.sigtermFlag = 1
    · obtain ⟨hsound, hfill⟩ := h.sigtermStage1 hphase hone fun hP => hkeeps hP hone
      rw [if_pos hone]
      refine hlast _ hsound hfill ?_
      rw [Loop.sigtermStage1]
    · have hwatch := h.stopped (by omega)
      have hlistening : s.listening = s.interrupts := by
        rw [Loop.listening, hwatch]
        rfl
      rw [if_neg hone]
      exact hlast s h (hlistening.symm ▸ hfilled) hwatch

/-- `update_blocked` starts with all blocked requests before it. -/
lemma Sound.startUpdate (h : s.Sound P r b f) {n : ℕ} (hfilled : s.Filled P b n) :
    s.startUpdate.Sound P r b f where
  inside := h.inside
  lists := h.lists
  stopped := h.stopped
  phase := ⟨[], b,
    { split := rfl
      current_eq := h.lists.shape.block.head_eq
      len := rfl
      interrupts := rfl
      done := fun _ => Holds.nil ..
      todo := fun hP => (hfilled.holds hP).1.entry }⟩

/-- `poll` writes what has happened into the table. -/
lemma Sound.callPoll (h : s.Sound P r b f) (hphase : s.phase = .poll) (result : PollResult) :
    (s.callPoll result).Sound P r b f := by
  obtain ⟨hfilled, htotal⟩ := h.listening (Or.inl hphase)
  unfold Loop.callPoll
  by_cases hlen : s.pfdLen = 0
  · rw [if_pos hlen]
    exact h.startUpdate hfilled
  · rw [if_neg hlen]
    cases result with
    | interrupted =>
        exact ⟨h.inside, h.lists, h.stopped,
          ⟨hfilled.le, hfilled.eq, hfilled.room, hfilled.holds⟩⟩
    | failed =>
        exact ⟨h.inside, h.lists, h.stopped,
          ⟨hfilled.le, hfilled.eq, hfilled.room, hfilled.holds⟩, htotal⟩
    | ok revents =>
        refine ⟨h.inside, h.lists, h.stopped, ⟨hfilled.le, hfilled.eq, hfilled.room, fun hP => ?_⟩,
          htotal⟩
        obtain ⟨hholds, hle⟩ := hfilled.holds hP
        refine ⟨hholds.congr (fun i _ => ?_) (fun _ _ => rfl) (fun _ _ => rfl), hle⟩
        by_cases hi : i < s.pfdLen <;> simp [entries, pfds, hi, Pollfd.watched]

/-- Behind `poll`. -/
lemma Sound.afterPoll (h : s.Sound P r b f) (hphase : s.phase = .polled) :
    s.afterPoll.Sound P r b f := by
  obtain ⟨hfilled, htotal⟩ := h.listening (Or.inr hphase)
  rw [Loop.afterPoll]
  split_ifs with hwatch
  · dsimp only
    split_ifs
    · exact ⟨h.inside, h.lists, h.stopped, trivial⟩
    · have hnew : Sound P { s with server := { s.server with pending := true } } r b f := by
        refine ⟨h.inside, ⟨h.lists.shape, h.lists.total, h.lists.bound,
          fun _ => htotal hwatch.2, h.lists.current⟩, h.stopped, ?_⟩
        rw [InPhase]
        simp only [hphase]
        exact ⟨⟨hfilled.le, hfilled.eq, hfilled.room, hfilled.holds⟩, htotal⟩
      exact hnew.startUpdate (n := s.listening)
        ⟨hfilled.le, hfilled.eq, hfilled.room, hfilled.holds⟩
    · exact h.startUpdate hfilled
  · exact h.startUpdate hfilled

/-- A request that stays blocked moves to the other table. -/
lemma Moving.stay {current : Option Addr} {done todo : List Addr}
    (h : s.Moving P b current done (a :: todo)) (ha : a ∉ done ∧ a ∉ todo)
    (hlt : s.pfdLen < maxFd) :
    (s.stillBlocked a).Moving P b todo.head? (done ++ [a]) todo where
  split := by rw [h.split, List.append_assoc, List.singleton_append]
  current_eq := rfl
  len := by
    rw [List.length_append, List.length_singleton, ← h.len]
    rfl
  interrupts := by
    rw [stillBlocked, store_of_lt hlt]
    exact h.interrupts
  done hP := by
    have hpush := (h.done hP).push ha.1 (s.entries (s.pollfdId a))
    have hwant : Function.update s.armed a (s.entries (s.pollfdId a)) = s.armed := by
      rw [h.todo hP a List.mem_cons_self, Function.update_eq_self]
    rw [← h.len, hwant, ← otherEntries_store hlt, ← pollfdId_setPollfdId] at hpush
    have hperm := hpush.perm (List.perm_append_singleton a done).symm
    rw [store_of_lt hlt] at hperm
    rw [stillBlocked, entries_watched, store_of_lt hlt]
    exact hperm
  todo hP x hx := by
    have hxa : x ≠ a := fun hxa => ha.2 (hxa ▸ hx)
    have hid : ((s.store (!s.which) s.pfdLen (s.entries (s.pollfdId a))).setPollfdId a
        s.pfdLen).pollfdId x = s.pollfdId x := by
      rw [pollfdId_setPollfdId, Function.update_of_ne hxa, store_of_lt hlt]
      rfl
    have hentries := congrFun (entries_store_other hlt (s.entries (s.pollfdId a)) s) (s.pollfdId x)
    have htodo := h.todo hP x (List.mem_cons_of_mem a hx)
    rw [← hentries, ← hid] at htodo
    rw [store_of_lt hlt] at htodo
    rw [stillBlocked, entries_watched, store_of_lt hlt]
    exact htodo

/-- A request that is made ready leaves its slot behind. -/
lemma Moving.leave {current : Option Addr} {done todo : List Addr}
    (h : s.Moving P b current done (a :: todo)) (ha : a ∉ done ∧ a ∉ todo) {server : Server}
    (hconns : ∀ x, x ≠ a → server.conns x = s.server.conns x) :
    Moving P { s with server := server } (done ++ todo) todo.head? done todo where
  split := rfl
  current_eq := rfl
  len := h.len
  interrupts := h.interrupts
  done hP := by
    refine (h.done hP).congr (fun _ _ => rfl) (fun x hx => ?_) (fun _ _ => rfl)
    have hxa : x ≠ a := fun hxa => ha.1 (hxa ▸ hx)
    exact congrArg (fun c : Conn => c.req.pollfdId) (hconns x hxa)
  todo hP x hx := by
    have hxa : x ≠ a := fun hxa => ha.2 (hxa ▸ hx)
    have hid : pollfdId { s with server := server } x = s.pollfdId x :=
      congrArg (fun c : Conn => c.req.pollfdId) (hconns x hxa)
    rw [hid]
    exact h.todo hP x (List.mem_cons_of_mem a hx)

/-- A turn of `update_blocked`, before the next request is taken up. -/
lemma Moving.updateBlocked {current : Option Addr} {done todo : List Addr}
    (h : s.Moving P b current done (a :: todo)) (ha : a ∉ done ∧ a ∉ todo)
    (hlists : s.server.Lists (fdSetsize - 20) r b f) (timeSince : ℤ) :
    ∃ r' b' done', (s.updateBlocked timeSince a).Moving P b' todo.head? done' todo ∧
      (s.updateBlocked timeSince a).server.Lists (fdSetsize - 20) r' b' f ∧
      (s.updateBlocked timeSince a).overrun = s.overrun ∧
      (s.updateBlocked timeSince a).sigtermFlag = s.sigtermFlag ∧
      (s.updateBlocked timeSince a).watchServer = s.watchServer := by
  obtain rfl := h.split
  have hmem : a ∈ done ++ a :: todo := List.mem_append_right _ List.mem_cons_self
  have herase : (done ++ a :: todo).erase a = done ++ todo := by
    rw [List.erase_append_right _ ha.1, List.erase_cons_head]
  have hlt : s.pfdLen < maxFd := by
    have hlength := length_lt_maxFd hlists
    rw [List.length_append, List.length_cons] at hlength
    rw [h.len]
    omega
  unfold Loop.updateBlocked
  cases verdict s.settings.cfg timeSince (s.pfds (s.pollfdId a)).revents
    (s.server.conns a).req with
  | stay =>
      have hstay := h.stay ha hlt
      refine ⟨r, done ++ a :: todo, done ++ [a], hstay, ?_⟩
      dsimp only
      rw [stillBlocked, store_of_lt hlt]
      exact ⟨hlists.setConn a _, rfl, rfl, rfl⟩
  | ready status =>
      cases status with
      | none =>
          have hlists' := hlists.readyRequest hmem
          rw [herase] at hlists'
          exact ⟨a :: r, done ++ todo, done, h.leave ha fun _ _ => rfl, hlists', rfl, rfl, rfl⟩
      | some status =>
          have hlists' := (hlists.setConn a ((s.server.conns a).setStatus status)).readyRequest hmem
          rw [herase] at hlists'
          exact ⟨a :: r, done ++ todo, done, h.leave ha fun x hx => Function.update_of_ne hx ..,
            hlists', rfl, rfl, rfl⟩

/-- A turn of `update_blocked`. -/
lemma Sound.updateBlocked (h : s.Sound P r b f) (hphase : s.phase = .update (some a))
    (timeSince : ℤ) : ∃ r' b', Sound P
      { s.updateBlocked timeSince a with phase := .update (s.server.mem a).next } r' b' f := by
  obtain ⟨done, todo', hmoving⟩ := h.moving hphase
  obtain ⟨todo, rfl⟩ : ∃ todo, todo' = a :: todo := by
    cases todo' with
    | nil => exact absurd hmoving.current_eq (by simp)
    | cons x todo => exact ⟨todo, by rw [Option.some.inj hmoving.current_eq]⟩
  have hblock := h.lists.shape.block
  rw [hmoving.split] at hblock
  obtain ⟨-, hcons, hdisj⟩ := List.nodup_append.mp hblock.nodup
  have ha : a ∉ done ∧ a ∉ todo :=
    ⟨fun ha => hdisj a ha a List.mem_cons_self rfl, (List.nodup_cons.mp hcons).1⟩
  have hnext : (s.server.mem a).next = todo.head? := hblock.links.2
  obtain ⟨r', b', done', hmoving', hlists', hinside, hflag, hwatch⟩ :=
    hmoving.updateBlocked ha h.lists timeSince
  rw [hnext]
  refine ⟨r', b', hinside.trans h.inside, hlists', fun hflag' => ?_, done', todo,
    ⟨hmoving'.split, rfl, hmoving'.len, hmoving'.interrupts, hmoving'.done, hmoving'.todo⟩⟩
  exact hwatch.trans (h.stopped (hflag ▸ hflag'))

/-- The tables change places when all blocked requests have been dealt with. -/
lemma Sound.startRequests (h : s.Sound P r b f) (hphase : s.phase = .update none)
    {acc : AcceptEnv} (hacc : Server.AcceptEnv.Fresh s.server acc) :
    ∃ r' f', (s.startRequests acc).Sound P r' b f' := by
  obtain ⟨done, todo, hmoving⟩ := h.moving hphase
  obtain rfl : todo = [] := List.head?_eq_none_iff.mp hmoving.current_eq.symm
  obtain rfl : b = done := hmoving.split.trans (List.append_nil done)
  obtain ⟨r', f', hlists, -, hconns⟩ :=
    h.lists.getRequest_ite s.settings.cfg s.settings.limit_le hacc
  refine ⟨r', f', h.inside, ⟨hlists.shape, hlists.total, hlists.bound, hlists.pending, ?_⟩,
    h.stopped, hmoving.len, hmoving.interrupts, fun hP => ?_⟩
  · exact fun x hx => List.mem_of_mem_head? (hlists.shape.ready.head_eq ▸ hx)
  · refine (hmoving.done hP).congr (fun _ _ => rfl) (fun x hx => ?_) (fun _ _ => rfl)
    exact congrArg (fun c : Conn => c.req.pollfdId) (hconns x hx)

/-- `BOA_FD_SET` completes the move of a request to `request_block`. -/
lemma Packed.arm (h : s.Packed P b) (hlists : s.server.Lists (fdSetsize - 20) r (a :: b) f)
    (hinside : s.overrun = false) (hstopped : 2 ≤ s.sigtermFlag → s.watchServer = false)
    (hphase : s.phase = .requests) (w : ℤ × ℕ) : (s.boaFdSet a w).Sound P r (a :: b) f := by
  have ha : a ∉ b := (List.nodup_cons.mp hlists.shape.block.nodup).1
  have hlt : b.length < maxFd := by
    have hlength := length_lt_maxFd hlists
    rw [List.length_cons] at hlength
    omega
  obtain ⟨hinside', hphase', hflag, hwatch, hserver⟩ := boaFdSet_rest (h.len ▸ hlt) a w
  refine ⟨hinside'.trans hinside, ?_, fun hflag' => ?_, ?_⟩
  · rw [hserver]
    exact hlists.setConn a _
  · exact hwatch.trans (hstopped (hflag ▸ hflag'))
  · rw [InPhase, hphase'.trans hphase]
    exact h.boaFdSet ha hlt w

/-- Only the slots of the blocked requests matter while `process_requests` runs. -/
lemma Packed.congr (h : s.Packed P b) {server : Server}
    (hconns : ∀ x ∈ b, server.conns x = s.server.conns x) :
    Packed P { s with server := server } b where
  len := h.len
  interrupts := h.interrupts
  holds hP := (h.holds hP).congr (fun _ _ => rfl)
    (fun x hx => congrArg (fun c : Conn => c.req.pollfdId) (hconns x hx)) (fun _ _ => rfl)

/-- Changing a request that is not blocked. -/
lemma conns_setConn (ha : a ∉ b) (c : Conn) (server : Server) :
    ∀ x ∈ b, (server.setConn a c).conns x = server.conns x :=
  fun x hx => Function.update_of_ne (fun hxa : x = a => ha (hxa ▸ hx)) ..

/-- The switch on the return value. -/
lemma Sound.settle (h : s.Sound P r b f) (hphase : s.phase = .requests) (ha : a ∈ r)
    (hcur : s.server.current ≠ some a) (retval : ℤ) :
    ∃ r' b' f', (s.settle retval a).Sound P r' b' f' := by
  have hpacked := h.packed hphase
  have hab : a ∉ b := fun hb => h.lists.shape.ready_block ha hb
  unfold Loop.settle
  split_ifs
  · have hmoved : Packed P { s with server := s.server.blockRequest a } b :=
      hpacked.congr fun _ _ => rfl
    exact ⟨r.erase a, a :: b, f,
      hmoved.arm (h.lists.blockRequest ha hcur) h.inside h.stopped hphase _⟩
  · obtain ⟨r', f', hlists⟩ := h.lists.freeRequest s.settings.cfg ha hcur
    have hconns : ∀ x ∈ b, (s.server.freeRequest s.settings.cfg a).conns x = s.server.conns x := by
      intro x hx
      refine Eq.trans ?_ (conns_setConn hab (Yabwf.freeRequest s.settings.cfg (s.server.conns a))
        s.server x hx)
      unfold Server.freeRequest
      cases freeRequestPlace (s.server.conns a) <;> rfl
    have hpacked' := hpacked.congr hconns
    unfold Loop.freeRequest
    cases hplace : freeRequestPlace (s.server.conns a) with
    | ready =>
        rw [hplace] at hlists
        exact ⟨r', b, f', h.inside, hlists, h.stopped, hpacked'.inPhase hphase⟩
    | block wait =>
        rw [hplace] at hlists
        exact ⟨r', a :: b, f', hpacked'.arm hlists h.inside h.stopped hphase _⟩
    | free =>
        rw [hplace] at hlists
        exact ⟨r', b, f', h.inside, hlists, h.stopped, hpacked'.inPhase hphase⟩
  · exact ⟨r, b, f, h⟩
  · have hpacked' := hpacked.congr (conns_setConn hab (s.server.conns a).die s.server)
    exact ⟨r, b, f, h.inside, h.lists.setConn a _, h.stopped, hpacked'.inPhase hphase⟩

/-- A turn of `process_requests`, or its end. -/
lemma Sound.turn (h : s.Sound P r b f) (hphase : s.phase = .requests) (env : Env)
    {acc : AcceptEnv} (hacc : Server.AcceptEnv.Fresh s.server acc) :
    ∃ r' b' f', (s.turn env acc).Sound P r' b' f' := by
  have hpacked := h.packed hphase
  unfold Loop.turn
  cases hcurrent : s.server.current with
  | none =>
      have hroom := (length_lt_maxFd h.lists).le
      refine ⟨r, b, f, h.inside, h.lists, h.stopped, ?_⟩
      have hlen : s.pfdLen = b.length + s.interrupts := by
        rw [hpacked.len, hpacked.interrupts, Nat.add_zero]
      exact ⟨hlen.le, fun _ => hlen, by rw [← hlen, hpacked.len]; exact hroom,
        fun hP => ⟨hpacked.holds hP, hpacked.len.ge⟩⟩
  | some a =>
      dsimp only
      generalize processRequest s.settings.cfg { env with sigterm := s.sigtermFlag ≠ 0 }
        { s.server.conns a with tape := env.sock } = res
      have ha : a ∈ r := h.lists.current a hcurrent
      have hab : a ∉ b := fun hb => h.lists.shape.ready_block ha hb
      obtain ⟨r', f', hlists, hsub, hconns⟩ :=
        (h.lists.setConn a res.2).getRequest_ite s.settings.cfg s.settings.limit_le hacc
      generalize (if (s.server.setConn a res.2).pending = true then
        (s.server.setConn a res.2).getRequest s.settings.cfg s.settings.limit acc
        else s.server.setConn a res.2) = server at hlists hconns ⊢
      -- the request behind this one is read before this one is moved
      have hnext : ∀ x ∈ (server.mem a).next, x ∈ r'.erase a := fun x hx =>
        hlists.shape.ready.next_mem (hsub ha) hx
      have hlists' : Server.Lists (fdSetsize - 20)
          { server with current := (server.mem a).next } r' b f' :=
        ⟨hlists.shape, hlists.total, hlists.bound, hlists.pending,
          fun x hx => List.mem_of_mem_erase (hnext x hx)⟩
      have hpacked' : Packed P
          { s with server := { server with current := (server.mem a).next } } b :=
        hpacked.congr fun x hx => (hconns x hx).trans (conns_setConn hab res.2 s.server x hx)
      have hsound : Sound P
          { s with server := { server with current := (server.mem a).next } } r' b f' :=
        ⟨h.inside, hlists', h.stopped, hpacked'.inPhase hphase⟩
      exact hsound.settle hphase (hsub ha)
        (fun hx => hlists.shape.ready.nodup.not_mem_erase (hnext a hx)) res.1

lemma Filled.raise {n : ℕ} (h : s.Filled P b n) (hzero : s.sigtermFlag = 0) :
    Filled P { s with sigtermFlag := 1 } b n :=
  ⟨h.le, fun _ => h.eq (by omega), h.room, h.holds⟩

lemma Packed.raise (h : s.Packed P b) : Packed P { s with sigtermFlag := 1 } b :=
  ⟨h.len, h.interrupts, h.holds⟩

/-- The arrival of `SIGTERM` leaves everything else as it is. -/
lemma InPhase.raise (h : s.InPhase P b) (hzero : s.sigtermFlag = 0) :
    InPhase P { s with sigtermFlag := 1 } b := by
  obtain ⟨server, settings, serverS, pfd1, which, pfdLen, serverPfd, watchServer, sigtermFlag,
    phase, overrun, armed, interrupts⟩ := s
  cases phase with
  | signals => exact Filled.raise h hzero
  | arm => exact Filled.raise h hzero
  | poll => exact ⟨Filled.raise h.1 hzero, h.2⟩
  | polled => exact ⟨Filled.raise h.1 hzero, h.2⟩
  | update current =>
      obtain ⟨done, todo, hm⟩ := h
      exact ⟨done, todo, hm.split, hm.current_eq, hm.len, hm.interrupts, hm.done, hm.todo⟩
  | requests => exact Packed.raise h
  | exited => trivial

/-- **One step of the loop** keeps the blocked requests in the table. -/
lemma Sound.step (h : s.Sound P r b f) {op : Op} (hlegal : s.Legal op)
    (hroom : s.RoomForServer op) (hkeeps : P → s.KeepsSlots op) :
    ∃ r' b' f', (s.step op).Sound P r' b' f' := by
  cases op with
  | sigterm =>
      refine ⟨r, b, f, ?_⟩
      unfold Loop.step
      dsimp only
      split_ifs with hzero
      · exact ⟨h.inside, h.lists, fun hflag => absurd hflag (show ¬2 ≤ 1 by decide),
          h.phase.raise hzero⟩
      · exact h
  | go ans =>
      unfold Loop.step
      dsimp only
      rw [h.inside, if_neg Bool.false_ne_true]
      cases hphase : s.phase with
      | signals =>
          obtain ⟨f', hsound⟩ := h.signals hphase ans.hangup
          exact ⟨r, b, f', hsound⟩
      | arm =>
          exact ⟨r, b, f, h.armServer hphase
            (fun hzero hlt => hroom hphase hzero hlt b h.lists.shape.block)
            fun hP hone => hkeeps hP hphase hone b h.lists.shape.block⟩
      | poll => exact ⟨r, b, f, h.callPoll hphase ans.poll⟩
      | polled => exact ⟨r, b, f, h.afterPoll hphase⟩
      | update current =>
          cases current with
          | none =>
              obtain ⟨r', f', hsound⟩ := h.startRequests hphase hlegal
              exact ⟨r', b, f', hsound⟩
          | some a =>
              obtain ⟨r', b', hsound⟩ := h.updateBlocked hphase ans.timeSince
              exact ⟨r', b', f, hsound⟩
      | requests => exact h.turn hphase ans.env hlegal
      | exited => exact ⟨r, b, f, h⟩

/-- Where there is no room for the listening socket, a store goes behind the table. -/
lemma Sound.overrun_of_not_room (h : s.Sound P r b f) {op : Op} (hroom : ¬s.RoomForServer op) :
    (s.step op).overrun = true := by
  cases op with
  | sigterm => exact absurd trivial hroom
  | go ans =>
      simp only [RoomForServer, not_forall] at hroom
      obtain ⟨hphase, hzero, hlt, b', hb', hfull⟩ := hroom
      obtain rfl := h.lists.shape.block.eq hb'
      have hlen := (h.filled (Or.inr hphase)).eq (by omega)
      unfold Loop.step
      dsimp only
      rw [h.inside, if_neg Bool.false_ne_true, hphase]
      dsimp only
      rw [Loop.armServer, if_neg (not_not.mpr hzero)]
      dsimp only
      rw [if_pos hlt, Loop.store, if_neg (by omega)]

/-! ### Runs -/

/-- What is known of a state that the loop reaches. -/
def Reached (P : Prop) (s : Loop) : Prop := s.overrun = false → ∃ r b f, s.Sound P r b f

lemma reached_initial (P : Prop) (set : LoopSettings) (serverS : ℤ) (tables : Bool → ℕ → Pollfd) :
    Reached P (initial set serverS tables) := fun _ =>
  ⟨[], [], [], rfl, Server.lists_empty _, fun hflag => absurd hflag (show ¬2 ≤ 0 by decide),
    ⟨le_rfl, fun _ => rfl, Nat.zero_le _, fun _ => ⟨Holds.nil .., le_rfl⟩⟩⟩

/-- Once a store has gone behind the table, it has. -/
lemma overrun_step (h : s.overrun = true) (op : Op) : (s.step op).overrun = true := by
  unfold Loop.step
  cases op with
  | sigterm =>
      dsimp only
      split_ifs
      · exact h
      · exact h
  | go ans =>
      dsimp only
      rw [if_pos h]
      exact h

lemma overrun_step_iff (h : Reached P s) {op : Op} (hlegal : s.Legal op)
    (hkeeps : P → s.KeepsSlots op) :
    (s.step op).overrun = false ↔ s.overrun = false ∧ s.RoomForServer op := by
  by_cases hinside : s.overrun = false
  · obtain ⟨r, b, f, hsound⟩ := h hinside
    refine ⟨fun hstep => ⟨hinside, ?_⟩, fun ⟨_, hroom⟩ => ?_⟩
    · by_contra hroom
      exact absurd (hsound.overrun_of_not_room hroom) (by rw [hstep]; decide)
    · obtain ⟨r', b', f', hsound'⟩ := hsound.step hlegal hroom hkeeps
      exact hsound'.inside
  · have htrue : s.overrun = true := Bool.eq_true_of_not_eq_false hinside
    refine ⟨fun hstep => absurd (overrun_step htrue op) (by rw [hstep]; decide),
      fun hboth => absurd hboth.1 hinside⟩

lemma Reached.step (h : Reached P s) {op : Op} (hlegal : s.Legal op)
    (hkeeps : P → s.KeepsSlots op) : Reached P (s.step op) := by
  intro hstep
  obtain ⟨hinside, hroom⟩ := (overrun_step_iff h hlegal hkeeps).mp hstep
  obtain ⟨r, b, f, hsound⟩ := h hinside
  exact hsound.step hlegal hroom hkeeps

/-- `poll` is called: the table is not empty, and no store has gone behind it. -/
def AtPoll (s : Loop) : Prop := s.phase = .poll ∧ s.pfdLen ≠ 0 ∧ s.overrun = false

instance (s : Loop) : Decidable s.AtPoll := inferInstanceAs (Decidable (_ ∧ _))

/-- Each blocked request has an entry of its own in the table of the call, with what
`BOA_FD_SET` has armed for it. -/
def Mapped (s : Loop) : Prop :=
  ∃ b, Represents s.server.mem s.server.block b ∧
    (∀ a ∈ b, s.pollfdId a < s.pfdLen ∧ (s.pfds (s.pollfdId a)).watched = s.armed a) ∧
    ∀ a ∈ b, ∀ a' ∈ b, s.pollfdId a = s.pollfdId a' → a = a'

lemma Sound.mapped (h : s.Sound P r b f) (hP : P) (hphase : s.phase = .poll) : s.Mapped := by
  obtain ⟨hholds, hle⟩ := (h.listening (Or.inl hphase)).1.holds hP
  exact ⟨b, h.lists.shape.block, fun a ha => ⟨(hholds.lt a ha).trans_le hle, hholds.entry a ha⟩,
    hholds.inj⟩

/-- **The capacity of the tables.** In a run of the loop no index from `MAX_FD` on is stored to
exactly if, whenever the listening socket is added, the blocked requests and the interruptions of
`poll` in a row are fewer than `MAX_FD`. -/
theorem pfds_inside_iff (set : LoopSettings) (serverS : ℤ) (tables : Bool → ℕ → Pollfd)
    (ops : List Op) (hops : Run.Allowed step Legal (initial set serverS tables) ops) :
    (Run.runs step (initial set serverS tables) ops).overrun = false ↔
      Run.Allowed step RoomForServer (initial set serverS tables) ops := by
  have hstep : ∀ (s : Loop) op, Reached False s → s.Legal op → Reached False (s.step op) :=
    fun _ _ hs hlegal => hs.step hlegal False.elim
  have hiff : ∀ (s : Loop) op, Reached False s → s.Legal op →
      ((s.step op).overrun = false ↔ s.overrun = false ∧ s.RoomForServer op) :=
    fun _ _ hs hlegal => overrun_step_iff hs hlegal False.elim
  have hruns := Run.runs_iff_allowed (P := fun s : Loop => s.overrun = false) hstep hiff ops _
    (reached_initial False set serverS tables) hops
  exact hruns.trans (and_iff_right rfl)

/-- A server with room for two connections. -/
def listeningServer : Loop := initial { maxConnections := 2 } 3 fun _ _ => {}

/-- `poll` is interrupted so often, as the end of a child does it. -/
def interruptedRun : ℕ → List Op
  | 0 => []
  | n + 1 => List.replicate 3 (.go {}) ++ interruptedRun n

lemma legal_replicate (n : ℕ) (s : Loop) :
    Run.Allowed step Legal s (List.replicate n (.go {})) := by
  refine Run.allowed_of_forall (fun op hop s => ?_) s
  rw [List.eq_of_mem_replicate hop]
  exact nofun

lemma legal_interruptedRun (n : ℕ) (s : Loop) : Run.Allowed step Legal s (interruptedRun n) := by
  induction n generalizing s with
  | zero => trivial
  | succ n ih => exact Run.allowed_append.mpr ⟨legal_replicate 3 s, ih _⟩

/-- The loop is at its top, with so many entries in the table and room for a connection. -/
structure Waiting (s : Loop) (n : ℕ) : Prop where
  inside : s.overrun = false
  phase : s.phase = .signals
  flag : s.sigtermFlag = 0
  len : s.pfdLen = n
  total : s.server.total < s.settings.limit

/-- An interruption leaves the listening socket once more in the table. -/
lemma Waiting.interrupted {n : ℕ} (h : s.Waiting n) (hn : n < maxFd) :
    (Run.runs step s (List.replicate 3 (.go {}))).Waiting (n + 1) := by
  obtain ⟨server, settings, serverS, pfd1, which, pfdLen, serverPfd, watchServer, sigtermFlag,
    phase, overrun, armed, interrupts⟩ := s
  obtain ⟨rfl, rfl, rfl, rfl, htotal⟩ := h
  have hlt : pfdLen < maxFd := hn
  simp only at htotal
  constructor <;> simp [List.replicate, step, armServer, htotal, store, hlt, callPoll]

lemma Waiting.overrun (h : s.Waiting maxFd) :
    (Run.runs step s (List.replicate 3 (.go {}))).overrun = true := by
  obtain ⟨server, settings, serverS, pfd1, which, pfdLen, serverPfd, watchServer, sigtermFlag,
    phase, overrun, armed, interrupts⟩ := s
  obtain ⟨rfl, rfl, rfl, hlen, htotal⟩ := h
  simp only at htotal hlen
  simp [List.replicate, step, armServer, htotal, store, hlen]

lemma overrun_runs (h : s.overrun = true) (ops : List Op) :
    (Run.runs step s ops).overrun = true := by
  induction ops generalizing s with
  | nil => exact h
  | cons op ops ih => exact ih (overrun_step h op)

/-- The interruptions do not stop at the end of the table. -/
lemma Waiting.overrun_interruptedRun {n k : ℕ} (h : s.Waiting k) (hk : k ≤ maxFd)
    (hn : maxFd < k + n) : (Run.runs step s (interruptedRun n)).overrun = true := by
  induction n generalizing s k with
  | zero => omega
  | succ n ih =>
      rw [interruptedRun, Run.runs_append]
      rcases hk.eq_or_lt with rfl | hlt
      · exact overrun_runs h.overrun _
      · exact ih (h.interrupted hlt) hlt (by omega)

/-- One interruption more than there are slots takes the listening socket out of the table. -/
theorem pfds_overrun :
    Run.Allowed step Legal listeningServer (interruptedRun (maxFd + 1)) ∧
      (Run.runs step listeningServer (interruptedRun (maxFd + 1))).overrun = true :=
  ⟨legal_interruptedRun _ _,
    Waiting.overrun_interruptedRun (k := 0) ⟨rfl, rfl, rfl, rfl, by decide⟩ (Nat.zero_le _)
      (by omega)⟩

theorem pfds_inside_iff_interruptedRun :
    (Run.runs step listeningServer (interruptedRun 3)).overrun = false ↔
      Run.Allowed step RoomForServer listeningServer (interruptedRun 3) :=
  pfds_inside_iff _ _ _ _ (legal_interruptedRun 3 _)

/-- A connection comes in. -/
def firstConnection : List Op :=
  [.go {}, .go {}, .go { poll := .ok fun _ => 1 }, .go {},
    .go { acc := ⟨{}, .ok 7 true [] [] 0, some 1⟩ }]

/-- A second one comes in while the first one is blocked, and is blocked on the next iteration of
the loop, which does not watch the listening socket. -/
def bothBlocked : List Op :=
  firstConnection ++ .go { acc := ⟨{}, .ok 8 true [] [] 0, some 2⟩ } ::
    (List.replicate 3 (.go {}) ++ .go { poll := .ok fun _ => 0 } :: List.replicate 5 (.go {}))

lemma legal_firstConnection : Run.Allowed step Legal listeningServer firstConnection := by
  refine ⟨nofun, nofun, nofun, nofun, ?_, trivial⟩
  rintro a ⟨⟩
  have hnone : ∀ l : Option Addr, l = none → ¬Server.OnList
      (Run.runs step listeningServer (firstConnection.take 4)).server l 1 := by
    rintro l rfl
    exact Server.not_onList (Represents.nil _) List.not_mem_nil
  exact ⟨hnone _ (by decide +kernel), hnone _ (by decide +kernel), hnone _ (by decide +kernel)⟩

lemma represents_firstConnection :
    Represents (Run.runs step listeningServer firstConnection).server.mem (some 1) [1] :=
  ⟨rfl, ⟨by decide +kernel, by decide +kernel, trivial⟩, List.nodup_singleton 1⟩

lemma legal_bothBlocked : Run.Allowed step Legal listeningServer bothBlocked := by
  refine Run.allowed_append.mpr ⟨legal_firstConnection, ?_, Run.allowed_append.mpr
    ⟨legal_replicate 3 _, nofun, legal_replicate 5 _⟩⟩
  rintro a ⟨⟩
  have hnone : ∀ l : Option Addr, l = none → ¬Server.OnList
      (Run.runs step listeningServer firstConnection).server l 2 := by
    rintro l rfl
    exact Server.not_onList (Represents.nil _) List.not_mem_nil
  have hready : (Run.runs step listeningServer firstConnection).server.ready = some 1 := by
    decide +kernel
  refine ⟨?_, hnone _ (by decide +kernel), hnone _ (by decide +kernel)⟩
  rw [hready]
  exact Server.not_onList represents_firstConnection (by decide)

/-- `SIGTERM` interrupts the `poll` that watches the listening socket behind a blocked request. -/
def interruptedPoll : List Op :=
  firstConnection ++ (List.replicate 4 (.go {}) ++ [.sigterm, .go {}, .go {}])

end Loop

end Yabwf
