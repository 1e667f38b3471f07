import Yabwf.Select
import Yabwf.Visit

/-!
What the sets of `select.c` hold, over the runs of the loop.

* `SelectLoop.Armed`: the blocked requests have what they wait for in the sets, up to `max_fd`.
* `SelectLoop.Clean`: every bit of the sets belongs to the listening socket, to a blocked request,
  or to one that has just timed out.
* `SelectLoop.Sound.step`: every step keeps both, provided that what one request waits for is not
  what another one holds.
* `select_watches`: so no request waits in vain, but for those that `fdset_update` passes over, and
  nothing else is waited for.
-/

namespace Yabwf

/-- `free_request` clears the bit. -/
def Request.Owns (r : Request) (w : FdBit) : Prop :=
  w = ((r.fd : ℤ), FdSet.read) ∨ w = ((r.fd : ℤ), FdSet.write) ∨
    (r.dataFd ≠ 0 ∧ w = ((r.dataFd : ℤ), FdSet.read)) ∨
    (r.postDataFd ≠ 0 ∧ w = ((r.postDataFd : ℤ), FdSet.write))

namespace SelectLoop

open Linked Server

/-- The bit of what a request waits for. -/
def awaited (s : SelectLoop) (a : Addr) : FdBit :=
  (Yabwf.blockRequest s.settings.cfg (s.server.conns a).req).bit (s.server.conns a).req

/-- `fdset_update` does not put the request into the sets again: it copies a file without
`sendfile`, and there is nothing in its buffer. -/
def PassedOver (cfg : Config) (r : Request) : Prop :=
  cfg.haveSendfile = false ∧ r.status = .ioShuffle ∧ r.bufferEnd = 0

/-- `select` is told to wait for the bit. -/
def Watched (s : SelectLoop) (w : FdBit) : Prop := s.sets w = true ∧ w.1 ≤ s.maxFd

/-- The requests have what they wait for in the sets. -/
def Armed (s : SelectLoop) (l : List Addr) : Prop :=
  ∀ a ∈ l, ¬PassedOver s.settings.cfg (s.server.conns a).req → s.Watched (s.awaited a)

/-- The listening socket is behind the bit. -/
def ServerBit (s : SelectLoop) (w : FdBit) : Prop := w = (s.serverS, .read) ∧ s.sigtermFlag < 2

/-- A request that has timed out is behind the bit. -/
def LateBit (s : SelectLoop) (w : FdBit) (a : Addr) : Prop :=
  (s.server.conns a).req.status = .timedOut ∧ (s.server.conns a).req.Owns w

/-- Nothing else is in the sets than what the listening socket and the blocked requests want, and
what requests that have timed out have left. -/
def Clean (s : SelectLoop) (b late : List Addr) : Prop :=
  ∀ w, s.sets w = true → s.ServerBit w ∨ (∃ a ∈ b, w = s.awaited a) ∨ ∃ a ∈ late, s.LateBit w a

/-- The listening socket is watched up to the limit on connections. -/
def Listening (s : SelectLoop) : Prop :=
  s.sigtermFlag < 2 → if s.server.total ≤ s.settings.limit then s.Watched (s.serverS, .read)
    else s.sets (s.serverS, .read) = false

/-- What the sets hold where the loop stands. -/
def InPhase (s : SelectLoop) (r b : List Addr) : Prop :=
  match s.phase with
  | .signals | .arm => s.Armed b ∧ s.Clean b []
  | .select => s.Armed b ∧ s.Clean b [] ∧ s.Listening
  | .selected =>
      s.Clean b [] ∧ (s.sigtermFlag < 2 → s.sets (s.serverS, .read) = true →
        s.server.total ≤ s.settings.limit)
  | .update current =>
      ∃ done todo, b = done ++ todo ∧ current = todo.head? ∧ s.Armed done ∧ s.Clean b r
  | .requests => ∃ todo, s.server.Round r todo ∧ s.Armed b ∧ s.Clean b todo
  | .exited => True

/-- The lists are lists, and the sets hold what they have to. -/
structure Sound (s : SelectLoop) (r b f : List Addr) : Prop where
  lists : s.server.Lists (fdSetsize - 20) r b f
  phase : s.InPhase r b

/-- What a blocked request waits for is not the listening socket, it is not held by the request at
hand, and that one has held what it has waited for. -/
def Separate (s : SelectLoop) : Op → Prop
  | .sigterm => True
  | .go ans => ∀ b, Represents s.server.mem s.server.block b →
      (s.phase = .arm → ∀ x ∈ b, s.awaited x ≠ (s.serverS, .read)) ∧
      (∀ a, s.phase = .update (some a) → (s.server.conns a).req.Owns (s.awaited a) ∧
        ∀ x ∈ b, x ≠ a → ¬(s.server.conns a).req.Owns (s.awaited x)) ∧
      ∀ a, s.phase = .requests → s.server.current = some a →
        ∀ x ∈ b, ¬(s.handle ans.env a).2.req.Owns (s.awaited x)

variable {s : SelectLoop} {a : Addr} {w : FdBit} {r b f l late : List Addr}

/-! ### Requests -/

/-- What is armed depends on the build only. -/
lemma blockRequest_congr {cfg cfg' : Config} (h : cfg'.haveSendfile = cfg.haveSendfile)
    (r : Request) : Yabwf.blockRequest cfg' r = Yabwf.blockRequest cfg r := by
  rw [Yabwf.blockRequest, Yabwf.blockRequest, h]

/-- A request that is not passed over is either made ready, or looked at where `block_request`
has armed it. -/
lemma fdTest_cases (cfg : Config) (r : Request) :
    (fdTest cfg r = .ready ∧ (r.status = .timedOut ∨ r.status = .dead)) ∨
      r.status ≠ .timedOut ∧ ∃ rearm, fdTest cfg r = .test (Yabwf.blockRequest cfg r) rearm ∧
        (rearm = false → PassedOver cfg r) := by
  rw [fdTest, Yabwf.blockRequest]
  by_cases hend : r.bufferEnd = 0
  · rw [if_neg fun h => h.1 hend, if_neg (not_not.mpr hend)]
    cases hstatus : r.status <;> simp [hend, PassedOver, hstatus]
    split_ifs with hsend <;> simp [hsend]
  · rw [if_pos hend]
    cases hstatus : r.status <;> simp [hend, ReqStatus.code]

/-- What a request waits for whose status is `TIMED_OUT` is its socket. -/
lemma owns_of_timedOut {r : Request} (h : r.status = .timedOut) (cfg : Config) :
    r.Owns ((Yabwf.blockRequest cfg r).bit r) := by
  rw [Yabwf.blockRequest, h]
  by_cases hend : r.bufferEnd = 0
  · rw [if_neg (not_not.mpr hend)]
    exact .inl rfl
  · rw [if_pos hend]
    exact .inr (.inl rfl)

/-! ### The sets -/

@[simp] lemma fdSet_server (w : FdBit) (s : SelectLoop) : (s.fdSet w).server = s.server := rfl

@[simp] lemma fdSet_settings (w : FdBit) (s : SelectLoop) : (s.fdSet w).settings = s.settings := rfl

@[simp] lemma fdClr_server (w : FdBit) (s : SelectLoop) : (s.fdClr w).server = s.server := rfl

@[simp] lemma fdClr_settings (w : FdBit) (s : SelectLoop) : (s.fdClr w).settings = s.settings := rfl

@[simp] lemma fdSet_sets (w w' : FdBit) (s : SelectLoop) :
    (s.fdSet w).sets w' = true ↔ w' = w ∨ s.sets w' = true := by
  by_cases h : w' = w <;> simp [fdSet, h]

@[simp] lemma fdClr_sets (w w' : FdBit) (s : SelectLoop) :
    (s.fdClr w).sets w' = true ↔ w' ≠ w ∧ s.sets w' = true := by
  by_cases h : w' = w <;> simp [fdClr, h]

lemma watched_fdSet (w : FdBit) (s : SelectLoop) : (s.fdSet w).Watched w := by
  refine ⟨by simp, ?_⟩
  show w.1 ≤ if w.1 > s.maxFd then w.1 else s.maxFd
  split_ifs <;> omega

lemma Watched.fdSet (h : s.Watched w) (w' : FdBit) : (s.fdSet w').Watched w := by
  refine ⟨by simp [h.1], h.2.trans ?_⟩
  show s.maxFd ≤ if w'.1 > s.maxFd then w'.1 else s.maxFd
  split_ifs <;> omega

lemma Watched.fdClr (h : s.Watched w) {w' : FdBit} (hne : w ≠ w') : (s.fdClr w').Watched w :=
  ⟨by simp [h.1, hne], h.2⟩

lemma Armed.fdSet (h : s.Armed l) (w : FdBit) : (s.fdSet w).Armed l :=
  fun a ha hnot => Watched.fdSet (h a ha hnot) w

lemma Armed.fdClr (h : s.Armed l) (hne : ∀ a ∈ l, s.awaited a ≠ w) : (s.fdClr w).Armed l :=
  fun a ha hnot => Watched.fdClr (h a ha hnot) (hne a ha)

lemma Clean.fdClr (h : s.Clean b late) (w : FdBit) : (s.fdClr w).Clean b late :=
  fun w' hw' => h w' ((fdClr_sets w w' s).mp hw').2

lemma Clean.fdSet (h : s.Clean b late)
    (hw : s.ServerBit w ∨ (∃ a ∈ b, w = s.awaited a) ∨ ∃ a ∈ late, s.LateBit w a) :
    (s.fdSet w).Clean b late := by
  intro w' hw'
  rcases (fdSet_sets w w' s).mp hw' with rfl | hset
  · exact hw
  · exact h w' hset

/-- Fewer bits and more requests. -/
lemma Clean.mono (h : s.Clean b late) {b' late' : List Addr} (hb : b ⊆ b') (hlate : late ⊆ late') :
    s.Clean b' late' := by
  intro w hw
  rcases h w hw with h | ⟨a, ha, h⟩ | ⟨a, ha, h⟩
  · exact .inl h
  · exact .inr (.inl ⟨a, hb ha, h⟩)
  · exact .inr (.inr ⟨a, hlate ha, h⟩)

/-! ### Changes of the requests -/

lemma awaited_congr {s' : SelectLoop} (hset : s'.settings = s.settings)
    (h : s'.server.conns a = s.server.conns a) : s'.awaited a = s.awaited a := by
  rw [awaited, awaited, hset, h]

/-- Only the contents of the blocked requests matter. -/
lemma Armed.congr (h : s.Armed l) {server : Server}
    (hconns : ∀ x ∈ l, server.conns x = s.server.conns x) :
    Armed { s with server := server } l := by
  intro x hx hnot
  have hc := hconns x hx
  have hw : awaited { s with server := server } x = s.awaited x := awaited_congr rfl hc
  rw [hw]
  exact h x hx fun hpassed => hnot (hc.symm ▸ hpassed)

lemma Clean.congr (h : s.Clean b late) {server : Server}
    (hb : ∀ x ∈ b, server.conns x = s.server.conns x)
    (hlate : ∀ x ∈ late, server.conns x = s.server.conns x) :
    Clean { s with server := server } b late := by
  intro w hw
  rcases h w hw with h | ⟨x, hx, h⟩ | ⟨x, hx, h⟩
  · exact .inl h
  · have hw' : awaited { s with server := server } x = s.awaited x := awaited_congr rfl (hb x hx)
    exact .inr (.inl ⟨x, hx, h.trans hw'.symm⟩)
  · have hc := hlate x hx
    exact .inr (.inr ⟨x, hx, (congrArg (fun c : Conn => c.req.status) hc).trans h.1,
      hc.symm ▸ h.2⟩)

/-! ### `fdset_update` -/

/-- `fdset_update` has a request at hand that may have timed out: its bit may be of what it has
waited for. -/
structure Examined (s : SelectLoop) (a : Addr) (r done todo : List Addr) : Prop where
  armed : s.Armed done
  clean : ∀ w, s.sets w = true → s.ServerBit w ∨ (∃ x ∈ done ++ todo, w = s.awaited x) ∨
    (∃ x ∈ r, s.LateBit w x) ∨ w = s.awaited a ∨ s.LateBit w a
  own : (s.server.conns a).req.Owns (s.awaited a)
  apart : ∀ x ∈ done ++ todo, ¬(s.server.conns a).req.Owns (s.awaited x)

/-- `ready_request` clears what `block_request` would arm. -/
lemma Examined.readyRequest {done todo : List Addr} (h : s.Examined a r done todo) :
    (s.readyRequest a).Armed done ∧ (s.readyRequest a).Clean (done ++ todo) (a :: r) := by
  have hready : s.readyRequest a
      = ({ s with server := s.server.readyRequest a } : SelectLoop).fdClr (s.awaited a) := rfl
  rw [hready]
  constructor
  · refine Armed.fdClr (h.armed.congr fun _ _ => rfl) fun x hx heq => ?_
    have heq' : s.awaited x = s.awaited a := heq
    exact h.apart x (List.mem_append_left todo hx) (heq' ▸ h.own)
  · intro w hw
    obtain ⟨hne, hset⟩ := (fdClr_sets _ _ _).mp hw
    rcases h.clean w hset with h | h | ⟨x, hx, h⟩ | h | h
    · exact .inl h
    · exact .inr (.inl h)
    · exact .inr (.inr ⟨x, List.mem_cons_of_mem a hx, h⟩)
    · exact absurd h hne
    · exact .inr (.inr ⟨a, List.mem_cons_self, h⟩)

/-- The request at hand goes to the front of `request_ready`. -/
lemma Examined.ready {done todo : List Addr} (h : s.Examined a r done todo)
    (hlists : s.server.Lists (fdSetsize - 20) r (done ++ a :: todo) f) (ha : a ∉ done) :
    Sound { s.readyRequest a with phase := .update todo.head? } (a :: r) (done ++ todo) f := by
  have hlists' := hlists.readyRequest (List.mem_append_right done List.mem_cons_self)
  rw [List.erase_append_right _ ha, List.erase_cons_head] at hlists'
  obtain ⟨harmed, hclean⟩ := h.readyRequest
  exact ⟨hlists', done, todo, rfl, rfl, harmed, hclean⟩

/-- A request that is looked at again behind a test for a time-out that it has failed. -/
lemma testRequest_of_timedOut (h : (s.server.conns a).req.status = .timedOut) :
    s.testRequest a = s.readyRequest a := by
  unfold testRequest
  dsimp only
  rcases fdTest_cases s.settings.cfg (s.server.conns a).req with ⟨htest, -⟩ | ⟨hne, -⟩
  · rw [htest]
  · exact absurd h hne

/-- What is done about a request that has not timed out: it is made ready, it is armed once more,
or it is passed over. -/
lemma testRequest_cases (s : SelectLoop) (a : Addr) :
    s.testRequest a = s.readyRequest a ∨ s.testRequest a = s.fdSet (s.awaited a) ∨
      s.testRequest a = s ∧ PassedOver s.settings.cfg (s.server.conns a).req := by
  unfold testRequest
  dsimp only
  rcases fdTest_cases s.settings.cfg (s.server.conns a).req with
    ⟨htest, -⟩ | ⟨-, rearm, htest, hpassed⟩
  · exact .inl (by rw [htest])
  · rw [htest]
    dsimp only
    split_ifs with hset hrearm
    · exact .inl rfl
    · exact .inr (.inl rfl)
    · exact .inr (.inr ⟨rfl, hpassed (Bool.eq_false_of_not_eq_true hrearm)⟩)

/-- The state in which `fdset_update` has found that the request has timed out. -/
def expire (a : Addr) (s : SelectLoop) : SelectLoop :=
  { s with server := s.server.setConn a ((s.server.conns a).setStatus .timedOut) }

lemma conns_expire (a : Addr) (s : SelectLoop) :
    (s.expire a).server.conns a = (s.server.conns a).setStatus .timedOut :=
  conns_setConn_self s.server a _

lemma conns_expire_of_ne {x : Addr} (h : x ≠ a) (s : SelectLoop) :
    (s.expire a).server.conns x = s.server.conns x := Function.update_of_ne h ..

/-- A request that times out leaves at most the bit of what it has waited for. -/
lemma Examined.expire {done todo : List Addr} (h : s.Examined a r done todo)
    (hbr : ∀ x ∈ (done ++ todo) ++ r, x ≠ a) : (s.expire a).Examined a r done todo := by
  have hstatus : ((s.expire a).server.conns a).req.status = .timedOut := by
    rw [conns_expire]
    rfl
  have howns : ∀ w, ((s.expire a).server.conns a).req.Owns w ↔ (s.server.conns a).req.Owns w := by
    intro w
    rw [conns_expire]
    exact Iff.rfl
  have hawaited : ∀ x ∈ done ++ todo, (s.expire a).awaited x = s.awaited x := fun x hx =>
    awaited_congr rfl (conns_expire_of_ne (hbr x (List.mem_append_left r hx)) s)
  refine ⟨?_, fun w hw => ?_, owns_of_timedOut hstatus _, fun x hx => ?_⟩
  · refine h.armed.congr fun x hx => conns_expire_of_ne (hbr x ?_) s
    exact List.mem_append_left r (List.mem_append_left todo hx)
  · rcases h.clean w hw with h' | ⟨x, hx, h'⟩ | ⟨x, hx, h'⟩ | h' | h'
    · exact .inl h'
    · exact .inr (.inl ⟨x, hx, h'.trans (hawaited x hx).symm⟩)
    · have hc := conns_expire_of_ne (hbr x (List.mem_append_right _ hx)) s
      refine .inr (.inr (.inl ⟨x, hx, ?_⟩))
      rwa [LateBit, hc]
    · exact .inr (.inr (.inr (.inr ⟨hstatus, (howns w).mpr (h' ▸ h.own)⟩)))
    · exact .inr (.inr (.inr (.inr ⟨hstatus, (howns w).mpr h'.2⟩)))
  · rw [hawaited x hx, howns]
    exact h.apart x hx

/-- **A turn of `fdset_update`**. -/
lemma Sound.fdsetUpdate (h : s.Sound r b f) (hphase : s.phase = .update (some a))
    (hown : (s.server.conns a).req.Owns (s.awaited a))
    (hapart : ∀ x ∈ b, x ≠ a → ¬(s.server.conns a).req.Owns (s.awaited x)) (timeSince : ℤ) :
    ∃ r' b', Sound { s.fdsetUpdate timeSince a with phase := .update (s.server.mem a).next }
      r' b' f := by
  have hin := h.phase
  rw [InPhase, hphase] at hin
  obtain ⟨done, todo', rfl, hcurrent, harmed, hclean⟩ := hin
  obtain ⟨todo, rfl⟩ : ∃ todo, todo' = a :: todo := by
    cases todo' with
    | nil => exact absurd hcurrent (by simp)
    | cons x todo => exact ⟨todo, by rw [Option.some.inj hcurrent]⟩
  have hblock := h.lists.shape.block
  obtain ⟨-, hcons, hdisj⟩ := List.nodup_append.mp hblock.nodup
  have hdone : a ∉ done := fun ha => hdisj a ha a List.mem_cons_self rfl
  have htodo : a ∉ todo := (List.nodup_cons.mp hcons).1
  have har : a ∉ r := fun ha => h.lists.shape.ready_block ha (by simp)
  have hne : ∀ x ∈ (done ++ todo) ++ r, x ≠ a := by
    rintro x hx rfl
    simp [hdone, htodo, har] at hx
  have hexam : s.Examined a r done todo := by
    refine ⟨harmed, fun w hw => ?_, hown, fun x hx => ?_⟩
    · rcases hclean w hw with h' | ⟨x, hx, h'⟩ | h'
      · exact .inl h'
      · by_cases hxa : x = a
        · exact .inr (.inr (.inr (.inl (hxa ▸ h'))))
        · exact .inr (.inl ⟨x, by simpa [hxa] using hx, h'⟩)
      · exact .inr (.inr (.inl h'))
    · have hxa := hne x (List.mem_append_left r hx)
      refine hapart x ?_ hxa
      rw [List.mem_append] at hx ⊢
      exact hx.imp_right (List.mem_cons_of_mem a)
  rw [hblock.links.2]
  unfold SelectLoop.fdsetUpdate
  split_ifs
  · have hstatus : ((s.expire a).server.conns a).req.status = .timedOut := by
      rw [conns_expire]
      rfl
    refine ⟨a :: r, done ++ todo, ?_⟩
    have hready := (hexam.expire hne).ready (h.lists.setConn a _) hdone
    rw [← testRequest_of_timedOut hstatus] at hready
    exact hready
  · rcases testRequest_cases s a with heq | heq | ⟨heq, hpassed⟩
    · rw [heq]
      exact ⟨a :: r, done ++ todo, hexam.ready h.lists hdone⟩
    · rw [heq]
      refine ⟨r, done ++ a :: todo, h.lists, done ++ [a], todo, by simp, rfl, ?_, ?_⟩
      · intro x hx hnot
        rcases List.mem_append.mp hx with hx | hx
        · exact (harmed.fdSet (s.awaited a)) x hx hnot
        · rw [List.mem_singleton.mp hx]
          exact watched_fdSet (s.awaited a) s
      · exact hclean.fdSet (.inr (.inl ⟨a, by simp, rfl⟩))
    · rw [heq]
      refine ⟨r, done ++ a :: todo, h.lists, done ++ [a], todo, by simp, rfl, ?_, hclean⟩
      intro x hx hnot
      rcases List.mem_append.mp hx with hx | hx
      · exact harmed x hx hnot
      · rw [List.mem_singleton.mp hx] at hnot
        exact absurd hpassed hnot

/-! ### The top of the loop -/

lemma Sound.armed_clean (h : s.Sound r b f) (hphase : s.phase = .signals ∨ s.phase = .arm) :
    s.Armed b ∧ s.Clean b [] := by
  have hin := h.phase
  rw [InPhase] at hin
  rcases hphase with hphase | hphase <;> rwa [hphase] at hin

/-- The signals other than `SIGTERM` leave the sets alone. -/
lemma Sound.signals (h : s.Sound r b f) (hphase : s.phase = .signals)
    {hangup : Option LoopSettings}
    (hbuild : ∀ set ∈ hangup, set.cfg.haveSendfile = s.settings.cfg.haveSendfile) :
    ∃ f', Sound { (match hangup with
      | some set => s.sighupRun set
      | none => s) with phase := .arm } r b f' := by
  obtain ⟨harmed, hclean⟩ := h.armed_clean (.inl hphase)
  cases hangup with
  | none => exact ⟨f, h.lists, harmed, hclean⟩
  | some set =>
      have hcfg := hbuild set rfl
      have hawaited : ∀ x, (s.sighupRun set).awaited x = s.awaited x := fun x => by
        show (Yabwf.blockRequest set.cfg _).bit _ = _
        rw [blockRequest_congr hcfg]
        rfl
      refine ⟨[], h.lists.freeRequests, fun x hx hnot => ?_, fun w hw => ?_⟩
      · have hwatched := harmed x hx fun hpassed => hnot ⟨hcfg.trans hpassed.1, hpassed.2⟩
        rw [← hawaited x] at hwatched
        exact hwatched
      · rcases hclean w hw with h' | ⟨x, hx, h'⟩ | ⟨x, hx, -⟩
        · exact .inl h'
        · exact .inr (.inl ⟨x, hx, h'.trans (hawaited x).symm⟩)
        · exact absurd hx List.not_mem_nil

/-- Noticing `SIGTERM` takes the listening socket out of the sets. -/
lemma Sound.sigtermStage1 (h : s.Sound r b f) (hphase : s.phase = .arm)
    (hserver : ∀ x ∈ b, s.awaited x ≠ (s.serverS, .read)) :
    s.sigtermStage1.Armed b ∧ s.sigtermStage1.Clean b [] := by
  obtain ⟨harmed, hclean⟩ := h.armed_clean (.inr hphase)
  refine ⟨harmed.fdClr hserver, fun w hw => ?_⟩
  obtain ⟨hne, hset⟩ := (fdClr_sets (s.serverS, .read) w s).mp hw
  rcases hclean w hset with h' | h' | h'
  · exact absurd h'.1 hne
  · exact .inr (.inl h')
  · exact .inr (.inr h')

/-- The lists do not depend on `pending_requests` but for the limit. -/
lemma lists_pending (h : s.server.Lists (fdSetsize - 20) r b f) :
    Lists (fdSetsize - 20) { s.server with pending := false } r b f :=
  ⟨h.shape, h.total, h.bound, nofun, h.current⟩

/-- The part between the signals and `select`. -/
lemma Sound.armServer (h : s.Sound r b f) (hphase : s.phase = .arm)
    (hserver : ∀ x ∈ b, s.awaited x ≠ (s.serverS, .read)) : s.armServer.Sound r b f := by
  obtain ⟨harmed, hclean⟩ := h.armed_clean (.inr hphase)
  -- what is left once the flag has been looked at
  have hlast : ∀ e : SelectLoop, e.server.Lists (fdSetsize - 20) r b f → e.Armed b →
      e.Clean b [] → ¬e.sigtermFlag < 2 →
      Sound (if e.sigtermFlag = 2 ∧ e.server.ready = none ∧ e.server.block = none then
        { e with phase := .exited }
      else { e with phase := .select, server := { e.server with pending := false } }) r b f := by
    intro e he harmed hclean hflag
    split_ifs
    · exact ⟨he, trivial⟩
    · exact ⟨lists_pending he, harmed, hclean, fun hlt => absurd hlt hflag⟩
  rw [SelectLoop.armServer]
  by_cases hzero : s.sigtermFlag = 0
  · rw [if_neg (not_not.mpr hzero)]
    dsimp only
    by_cases hfull : s.server.total > s.settings.limit
    · rw [if_pos hfull]
      refine ⟨lists_pending h.lists, harmed.fdClr hserver, hclean.fdClr _, fun _ => ?_⟩
      show if s.server.total ≤ s.settings.limit then _ else _
      rw [if_neg (not_le.mpr hfull)]
      show (s.fdClr (s.serverS, .read)).sets (s.serverS, .read) = false
      exact Bool.eq_false_of_not_eq_true fun hset => ((fdClr_sets _ _ _).mp hset).1 rfl
    · rw [if_neg hfull]
      refine ⟨lists_pending h.lists, harmed.fdSet _, hclean.fdSet (.inl ⟨rfl, ?_⟩), fun _ => ?_⟩
      · omega
      · show if s.server.total ≤ s.settings.limit then _ else _
        rw [if_pos (not_lt.mp hfull)]
        exact watched_fdSet (s.serverS, .read) s
  · rw [if_pos hzero]
    dsimp only
    by_cases hone : s.sigtermFlag = 1
    · obtain ⟨harmed', hclean'⟩ := h.sigtermStage1 hphase hserver
      rw [if_pos hone]
      exact hlast _ h.lists harmed' hclean' (lt_irrefl 2)
    · rw [if_neg hone]
      exact hlast s h.lists harmed hclean (by omega)

/-- `fdset_update` starts with all blocked requests before it. -/
lemma Sound.startUpdate (h : s.server.Lists (fdSetsize - 20) r b f) (hclean : s.Clean b []) :
    s.startUpdate.Sound r b f := by
  refine ⟨h, [], b, rfl, h.shape.block.head_eq, fun x hx => absurd hx List.not_mem_nil, ?_⟩
  have hmono := hclean.mono (List.Subset.refl b) (List.nil_subset r)
  exact hmono

/-- `select` leaves bits that it has been given. -/
lemma Sound.callSelect (h : s.Sound r b f) (hphase : s.phase = .select) (result : SelectResult) :
    (s.callSelect result).Sound r b f := by
  have hin := h.phase
  rw [InPhase, hphase] at hin
  obtain ⟨harmed, hclean, hlisten⟩ := hin
  have hbelow : s.sigtermFlag < 2 → s.sets (s.serverS, .read) = true →
      s.server.total ≤ s.settings.limit := by
    intro hflag hset
    have hlisten' := hlisten hflag
    by_contra hfull
    rw [if_neg hfull, hset] at hlisten'
    cases hlisten'
  unfold SelectLoop.callSelect
  split_ifs
  · exact Sound.startUpdate h.lists hclean
  · cases result with
    | interrupted => exact ⟨h.lists, harmed, hclean⟩
    | badFd => exact ⟨h.lists, hclean, hbelow⟩
    | failed => exact ⟨h.lists, trivial⟩
    | ok ready =>
        have hkept : ∀ w, (s.sets w && ready w) = true → s.sets w = true := fun w hw =>
          (Bool.and_eq_true_iff.mp hw).1
        exact ⟨h.lists, fun w hw => hclean w (hkept w hw), fun hflag hset =>
          hbelow hflag (hkept _ hset)⟩

/-- Behind `select`. -/
lemma Sound.afterSelect (h : s.Sound r b f) (hphase : s.phase = .selected) :
    s.afterSelect.Sound r b f := by
  have hin := h.phase
  rw [InPhase, hphase] at hin
  obtain ⟨hclean, hbelow⟩ := hin
  rw [SelectLoop.afterSelect]
  split_ifs with hset
  · have htotal := hbelow (by omega) hset.2
    refine Sound.startUpdate (s := { s with server := { s.server with pending := true } })
      ⟨h.lists.shape, h.lists.total, h.lists.bound, fun _ => ?_, h.lists.current⟩ hclean
    exact htotal.trans (Int.ofNat_le.mpr s.settings.limit_le)
  · exact Sound.startUpdate h.lists hclean

/-! ### `process_requests` -/

/-- `process_requests` has all ready requests before it. -/
lemma Sound.startRequests (h : s.Sound r b f) (hphase : s.phase = .update none) {acc : AcceptEnv}
    (hacc : AcceptEnv.Fresh s.server acc) :
    ∃ r' f', (s.startRequests acc).Sound r' b f' := by
  have hin := h.phase
  rw [InPhase, hphase] at hin
  obtain ⟨done, todo, rfl, hcurrent, harmed, hclean⟩ := hin
  obtain rfl : todo = [] := List.head?_eq_none_iff.mp hcurrent.symm
  rw [List.append_nil] at hclean
  rw [List.append_nil] at h ⊢
  unfold SelectLoop.startRequests
  split_ifs with hcall
  · obtain ⟨new, f', hlists, hround, hconns⟩ :=
      h.lists.startRequests s.settings.cfg s.settings.limit_le hacc
    have hb : ∀ x ∈ done, (s.server.startRequests s.settings.cfg s.settings.limit acc).conns x
        = s.server.conns x := fun x hx => hconns x (List.mem_append_right r hx)
    have hr : ∀ x ∈ r, (s.server.startRequests s.settings.cfg s.settings.limit acc).conns x
        = s.server.conns x := fun x hx => hconns x (List.mem_append_left done hx)
    refine ⟨new ++ r, f', hlists, new ++ r, hround, harmed.congr hb, ?_⟩
    exact (hclean.congr hb hr).mono (List.Subset.refl done) (List.subset_append_right new r)
  · rw [not_or, not_not] at hcall
    obtain rfl : r = [] :=
      List.head?_eq_none_iff.mp (h.lists.shape.ready.head_eq.symm.trans hcall.2)
    exact ⟨[], f, h.lists, harmed, hclean⟩

@[simp] lemma clearFiles_server (req : Request) (s : SelectLoop) :
    (s.clearFiles req).server = s.server := by
  unfold clearFiles
  dsimp only
  split_ifs <;> rfl

lemma clearFiles_rest (req : Request) (s : SelectLoop) :
    (s.clearFiles req).settings = s.settings ∧ (s.clearFiles req).phase = s.phase ∧
      (s.clearFiles req).serverS = s.serverS ∧
      (s.clearFiles req).sigtermFlag = s.sigtermFlag := by
  unfold clearFiles
  dsimp only
  split_ifs <;> exact ⟨rfl, rfl, rfl, rfl⟩

/-- The bits that go are those of the files. -/
lemma clearFiles_cases {P : SelectLoop → Prop} {req : Request} (h : P s)
    (hstep : ∀ s w, req.Owns w → P s → P (s.fdClr w)) : P (s.clearFiles req) := by
  unfold clearFiles
  dsimp only
  split_ifs with hp hd hd
  · exact hstep _ _ (.inr (.inr (.inr ⟨hp, rfl⟩)))
      (hstep _ _ (.inr (.inr (.inl ⟨hd, rfl⟩))) h)
  · exact hstep _ _ (.inr (.inr (.inr ⟨hp, rfl⟩))) h
  · exact hstep _ _ (.inr (.inr (.inl ⟨hd, rfl⟩))) h
  · exact h

lemma Armed.clearFiles (h : s.Armed l) {req : Request} (hapart : ∀ x ∈ l, ¬req.Owns (s.awaited x)) :
    (s.clearFiles req).Armed l := by
  have hboth : (s.clearFiles req).Armed l ∧ ∀ x ∈ l, ¬req.Owns ((s.clearFiles req).awaited x) := by
    refine clearFiles_cases (P := fun e => e.Armed l ∧ ∀ x ∈ l, ¬req.Owns (e.awaited x))
      ⟨h, hapart⟩ fun e w hw he => ⟨he.1.fdClr fun x hx heq => he.2 x hx (heq ▸ hw), he.2⟩
  exact hboth.1

lemma Clean.clearFiles (h : s.Clean b late) (req : Request) : (s.clearFiles req).Clean b late :=
  clearFiles_cases (P := fun e => e.Clean b late) h fun _ w _ he => he.fdClr w

/-- The bits that `free_request` clears are not set any more. -/
lemma not_owns_of_cleared {req : Request}
    (h : (((s.clearFiles req).fdClr ((req.fd : ℤ), .read)).fdClr ((req.fd : ℤ), .write)).sets w
      = true) : ¬req.Owns w ∧ s.sets w = true := by
  obtain ⟨hwrite, h⟩ := (fdClr_sets _ _ _).mp h
  obtain ⟨hread, h⟩ := (fdClr_sets _ _ _).mp h
  unfold SelectLoop.clearFiles at h
  dsimp only at h
  rw [Request.Owns]
  split_ifs at h with hp hd hd
  · obtain ⟨hpost, h⟩ := (fdClr_sets _ _ _).mp h
    obtain ⟨hdata, h⟩ := (fdClr_sets _ _ _).mp h
    exact ⟨by tauto, h⟩
  · obtain ⟨hpost, h⟩ := (fdClr_sets _ _ _).mp h
    exact ⟨by tauto, h⟩
  · obtain ⟨hdata, h⟩ := (fdClr_sets _ _ _).mp h
    exact ⟨by tauto, h⟩
  · exact ⟨by tauto, h⟩

/-- A request that `free_request` keeps for another one waits for its socket. -/
lemma freeRequest_of_block {c : Conn} {wait : Wait} (h : freeRequestPlace c = .block wait)
    (cfg : Config) : wait = .socketRead ∧
      (Yabwf.freeRequest cfg c).req.status = .readHeader ∧
      (Yabwf.freeRequest cfg c).req.bufferEnd = 0 ∧
      (Yabwf.freeRequest cfg c).req.fd = c.req.fd := by
  -- behind the flush
  have hrelease : ∀ d : Conn, d.req.fd = c.req.fd → releasePlace d.req = .block wait →
      wait = .socketRead ∧ (releaseRequest cfg d).req.status = .readHeader ∧
      (releaseRequest cfg d).req.bufferEnd = 0 ∧ (releaseRequest cfg d).req.fd = c.req.fd := by
    intro d hfd hplace
    rw [releasePlace] at hplace
    split_ifs at hplace with hkeeps
    rcases releaseRequest_cases cfg d with ⟨n, -, heq⟩ | ⟨n, hnot, -⟩
    · rw [heq]
      exact ⟨(Place.block.inj hplace).symm, rfl, rfl, hfd⟩
    · exact absurd hkeeps hnot
  rw [freeRequestPlace] at h
  rw [Yabwf.freeRequest]
  split_ifs at h ⊢ with hflush
  · rcases reqFlush_cases (c.setStatus .done) with ⟨hret, -⟩ | ⟨t, -, -, heq⟩ |
      ⟨t, es, i, e, -, heq⟩
    · rcases hres : reqFlush (c.setStatus .done) with ⟨retval, d⟩
      rw [hres] at h hret
      dsimp only at h hret
      rw [if_pos hret] at h
      -- a request that has died is not kept
      have hdead : ¬(d.setStatus .dead).req.KeepsConnection := fun hk =>
        absurd hk.1 (by simp [Conn.setStatus, Conn.upd, ReqStatus.code])
      rw [releasePlace, if_neg hdead] at h
      cases h
    · rw [heq] at h ⊢
      exact hrelease _ rfl h
    · rw [heq] at h ⊢
      dsimp only at h ⊢
      rw [if_neg (by omega)] at h ⊢
      split_ifs at h ⊢
      exact hrelease _ rfl h
  · exact hrelease c rfl h

/-- A request that has timed out is given up on the next visit, with the descriptors that it
holds. -/
lemma handle_of_timedOut (h : (s.server.conns a).req.status = .timedOut) (env : Env) :
    (s.handle env a).1 = 0 ∧ (s.handle env a).2.req.bufferEnd = 0 ∧
      (s.handle env a).2.req.status = .timedOut ∧
      ∀ w, (s.handle env a).2.req.Owns w ↔ (s.server.conns a).req.Owns w := by
  have hflush : flushFirst { s.server.conns a with tape := env.sock }
      = (1, { s.server.conns a with tape := env.sock }) := by
    rw [flushFirst, if_neg]
    rw [h]
    exact fun hlt => absurd hlt.2 (by decide)
  unfold handle
  rw [processRequest_of_flush hflush, handleStatus, h]
  dsimp only
  split_ifs <;> exact ⟨rfl, rfl, h, fun _ => Iff.rfl⟩

/-- Behind the handlers: what is known of the request at hand and of the others. -/
structure Handled (s : SelectLoop) (a : Addr) (r b f todo : List Addr) : Prop where
  lists : s.server.Lists (fdSetsize - 20) r b f
  phase : s.phase = .requests
  suffix : a :: todo <:+ r
  current : s.server.current = todo.head?
  armed : s.Armed b
  apart : ∀ x ∈ b, ¬(s.server.conns a).req.Owns (s.awaited x)

namespace Handled

variable {todo : List Addr}

lemma mem (h : s.Handled a r b f todo) : a ∈ r := h.suffix.subset List.mem_cons_self

/-- What comes behind the request at hand stays when that one goes. -/
lemma behind (h : s.Handled a r b f todo) : todo <:+ r.erase a :=
  suffix_erase h.lists.shape.ready.nodup h.suffix

lemma not_mem_todo (h : s.Handled a r b f todo) : a ∉ todo := fun ha =>
  h.lists.shape.ready.nodup.not_mem_erase (h.behind.subset ha)

lemma not_mem_block (h : s.Handled a r b f todo) : a ∉ b := fun ha =>
  h.lists.shape.ready_block h.mem ha

lemma current_ne (h : s.Handled a r b f todo) : s.server.current ≠ some a := by
  rw [h.current]
  exact fun ha => h.not_mem_todo (List.mem_of_mem_head? ha)

/-- Changing the request at hand. -/
lemma armed_congr (h : s.Handled a r b f todo) {server : Server}
    (hconns : ∀ x, x ≠ a → server.conns x = s.server.conns x) :
    Armed { s with server := server } b :=
  h.armed.congr fun x hx => hconns x fun hxa => h.not_mem_block (hxa ▸ hx)

lemma clean_congr (h : s.Handled a r b f todo) (hclean : s.Clean b todo) {server : Server}
    (hconns : ∀ x, x ≠ a → server.conns x = s.server.conns x) :
    Clean { s with server := server } b todo :=
  hclean.congr (fun x hx => hconns x fun hxa => h.not_mem_block (hxa ▸ hx))
    fun x hx => hconns x fun hxa => h.not_mem_todo (hxa ▸ hx)

/-- What is left to show where the request at hand has been moved. -/
lemma sound {r' b' f' : List Addr} {s' : SelectLoop} (hphase : s'.phase = .requests)
    (hlists : s'.server.Lists (fdSetsize - 20) r' b' f') (hsuffix : todo <:+ r')
    (hcurrent : s'.server.current = todo.head?) (harmed : s'.Armed b')
    (hclean : s'.Clean b' todo) : s'.Sound r' b' f' := by
  refine ⟨hlists, ?_⟩
  rw [InPhase, hphase]
  exact ⟨todo, ⟨hsuffix, hcurrent⟩, harmed, hclean⟩

/-- **`block_request`** puts what the request waits for into the sets. -/
lemma blockRequest (h : s.Handled a r b f todo) (hclean : s.Clean b todo) :
    (s.blockRequest a).Sound (r.erase a) (a :: b) f := by
  have heq : s.blockRequest a
      = ({ s with server := s.server.blockRequest a } : SelectLoop).fdSet (s.awaited a) := rfl
  rw [heq]
  have harmed : Armed { s with server := s.server.blockRequest a } b :=
    h.armed.congr fun _ _ => rfl
  have hclean' : Clean { s with server := s.server.blockRequest a } b todo :=
    hclean.congr (fun _ _ => rfl) fun _ _ => rfl
  refine sound h.phase (h.lists.blockRequest h.mem h.current_ne) h.behind h.current
    (fun x hx hnot => ?_) ?_
  · rcases List.mem_cons.mp hx with rfl | hx
    · exact watched_fdSet _ _
    · exact harmed.fdSet _ x hx hnot
  · refine (hclean'.mono (List.subset_cons_self a b) (List.Subset.refl todo)).fdSet ?_
    exact .inr (.inl ⟨a, List.mem_cons_self, rfl⟩)

/-- Clearing the bits of the request at hand. -/
lemma clear (h : s.Handled a r b f todo) {server : Server}
    (hconns : ∀ x, x ≠ a → server.conns x = s.server.conns x) :
    Armed (clearFiles (s.server.conns a).req { s with server := server }) b ∧
      ∀ x ∈ b, ∀ w, (s.server.conns a).req.Owns w →
        awaited (clearFiles (s.server.conns a).req { s with server := server }) x ≠ w := by
  have hawaited : ∀ x ∈ b, awaited { s with server := server } x = s.awaited x := fun x hx =>
    SelectLoop.awaited_congr rfl (hconns x fun hxa => h.not_mem_block (hxa ▸ hx))
  have hclear : ∀ x, awaited (clearFiles (s.server.conns a).req { s with server := server }) x
      = awaited { s with server := server } x := fun x =>
    SelectLoop.awaited_congr (clearFiles_rest _ _).1 (by rw [clearFiles_server])
  constructor
  · refine (h.armed_congr hconns).clearFiles fun x hx => ?_
    rw [hawaited x hx]
    exact h.apart x hx
  · rintro x hx w hw rfl
    rw [hclear x, hawaited x hx] at hw
    exact h.apart x hx hw

/-- A request that is freed leaves no bit behind. -/
lemma freed (h : s.Handled a r b f todo) {server : Server}
    (hconns : ∀ x, x ≠ a → server.conns x = s.server.conns x)
    (hclean : ∀ w, s.sets w = true → (s.server.conns a).req.Owns w ∨ s.ServerBit w ∨
      (∃ x ∈ b, w = s.awaited x) ∨ ∃ x ∈ todo, s.LateBit w x) :
    Clean (((clearFiles (s.server.conns a).req { s with server := server }).fdClr
      ((s.server.conns a).req.fd, .read)).fdClr ((s.server.conns a).req.fd, .write)) b todo := by
  obtain ⟨hsettings, -, hserverS, hflag⟩ := clearFiles_rest (s.server.conns a).req
    { s with server := server }
  have hserver := clearFiles_server (s.server.conns a).req { s with server := server }
  intro w hw
  obtain ⟨hnot, hset⟩ := not_owns_of_cleared hw
  rcases (hclean w hset).resolve_left hnot with ⟨h', hlt⟩ | ⟨x, hx, h'⟩ | ⟨x, hx, h'⟩
  · have hpair := congrArg (fun fd : ℤ => (fd, FdSet.read)) hserverS
    exact .inl ⟨h'.trans hpair.symm, hflag.trans_lt hlt⟩
  · have hc : (clearFiles (s.server.conns a).req { s with server := server }).server.conns x
        = s.server.conns x := by
      rw [hserver]
      exact hconns x fun hxa => h.not_mem_block (hxa ▸ hx)
    have hw' : awaited (clearFiles (s.server.conns a).req { s with server := server }) x
        = s.awaited x := SelectLoop.awaited_congr hsettings hc
    exact .inr (.inl ⟨x, hx, h'.trans hw'.symm⟩)
  · refine .inr (.inr ⟨x, hx, ?_⟩)
    have hc : (clearFiles (s.server.conns a).req { s with server := server }).server.conns x
        = s.server.conns x := by
      rw [hserver]
      exact hconns x fun hxa => h.not_mem_todo (hxa ▸ hx)
    show (((clearFiles _ _).server.conns x).req.status = .timedOut ∧
      ((clearFiles _ _).server.conns x).req.Owns w)
    rw [hc]
    exact h'

/-- A request that is kept waits for its socket. -/
lemma kept (h : s.Handled a r b f todo) {wait : Wait} (hclean : s.Clean b todo)
    (hplace : freeRequestPlace (s.server.conns a) = .block wait) :
    ∃ f', (s.freeRequest a).Sound (r.erase a) (a :: b) f' := by
  obtain ⟨f', hlists⟩ := h.lists.freeRequest_ready s.settings.cfg h.mem h.current_ne
  obtain ⟨hcurrent, hconns⟩ := freeRequest_rest s.settings.cfg s.server a
  obtain ⟨harmed, hapart⟩ := h.clear hconns
  obtain ⟨rfl, hstatus, hend, hfd⟩ := freeRequest_of_block hplace s.settings.cfg
  rw [hplace] at hlists
  have heq : s.freeRequest a = ((clearFiles (s.server.conns a).req
      { s with server := s.server.freeRequest s.settings.cfg a }).fdSet
        ((s.server.conns a).req.fd, .read)).fdClr ((s.server.conns a).req.fd, .write) := by
    unfold SelectLoop.freeRequest
    rw [hplace]
    dsimp only [Wait.bit]
    rw [conns_freeRequest_self, hfd]
  rw [heq]
  have hclean' := (h.clean_congr hclean hconns).clearFiles (s.server.conns a).req
  have hphase := (clearFiles_rest (s.server.conns a).req
    { s with server := s.server.freeRequest s.settings.cfg a }).2.1.trans h.phase
  have hserver := clearFiles_server (s.server.conns a).req
    { s with server := s.server.freeRequest s.settings.cfg a }
  generalize clearFiles (s.server.conns a).req
    { s with server := s.server.freeRequest s.settings.cfg a } = e
    at harmed hapart hclean' hphase hserver
  -- the request itself waits for its socket to be readable
  have hself : e.awaited a = (((s.server.conns a).req.fd : ℤ), FdSet.read) := by
    rw [SelectLoop.awaited, hserver, conns_freeRequest_self, Yabwf.blockRequest,
      if_neg (not_not.mpr hend), hstatus]
    dsimp only [Wait.bit]
    rw [hfd]
  refine ⟨f', sound hphase ?_ h.behind ?_ (fun x hx hnot => ?_) ?_⟩
  · show e.server.Lists _ _ _ _
    rw [hserver]
    exact hlists
  · show e.server.current = _
    rw [hserver]
    exact hcurrent.trans h.current
  · rcases List.mem_cons.mp hx with rfl | hx
    · show Watched ((e.fdSet _).fdClr _) (e.awaited x)
      rw [hself]
      exact (watched_fdSet _ e).fdClr (by simp)
    · exact ((harmed.fdSet _).fdClr fun y hy => hapart y hy _ (.inr (.inl rfl))) x hx hnot
  · refine ((hclean'.mono (List.subset_cons_self a b) (List.Subset.refl todo)).fdSet ?_).fdClr _
    exact .inr (.inl ⟨a, List.mem_cons_self, hself.symm⟩)

/-- **`free_request`** clears the bits of the request, and arms it again where it is kept. -/
lemma freeRequest (h : s.Handled a r b f todo)
    (hclean : ∀ w, s.sets w = true → (s.server.conns a).req.Owns w ∨ s.ServerBit w ∨
      (∃ x ∈ b, w = s.awaited x) ∨ ∃ x ∈ todo, s.LateBit w x)
    (hlate : freeRequestPlace (s.server.conns a) ≠ .free → s.Clean b todo) :
    ∃ r' b' f', (s.freeRequest a).Sound r' b' f' := by
  obtain ⟨f', hlists⟩ := h.lists.freeRequest_ready s.settings.cfg h.mem h.current_ne
  obtain ⟨hcurrent, hconns⟩ := freeRequest_rest s.settings.cfg s.server a
  cases hplace : freeRequestPlace (s.server.conns a) with
  | ready =>
      rw [hplace] at hlists hlate
      have hkept := hlate nofun
      unfold SelectLoop.freeRequest
      rw [hplace]
      exact ⟨r, b, f', sound h.phase hlists ((List.suffix_cons a todo).trans h.suffix)
        (hcurrent.trans h.current) (h.armed_congr hconns) (h.clean_congr hkept hconns)⟩
  | block wait =>
      rw [hplace] at hlate
      obtain ⟨f'', hsound⟩ := h.kept (hlate nofun) hplace
      exact ⟨r.erase a, a :: b, f'', hsound⟩
  | free =>
      obtain ⟨harmed, hapart⟩ := h.clear hconns
      have hfreed := h.freed hconns hclean
      have hserver := clearFiles_server (s.server.conns a).req
        { s with server := s.server.freeRequest s.settings.cfg a }
      have hphase := (clearFiles_rest (s.server.conns a).req
        { s with server := s.server.freeRequest s.settings.cfg a }).2.1.trans h.phase
      rw [hplace] at hlists
      unfold SelectLoop.freeRequest
      rw [hplace]
      dsimp only
      generalize clearFiles (s.server.conns a).req
        { s with server := s.server.freeRequest s.settings.cfg a } = e
        at harmed hapart hfreed hserver hphase ⊢
      refine ⟨r.erase a, b, f', sound hphase ?_ h.behind ?_ ?_ hfreed⟩
      · show e.server.Lists _ _ _ _
        rw [hserver]
        exact hlists
      · show e.server.current = _
        rw [hserver]
        exact hcurrent.trans h.current
      · exact (harmed.fdClr fun x hx => hapart x hx _ (.inl rfl)).fdClr
          fun x hx => hapart x hx _ (.inr (.inl rfl))

end Handled

/-- The switch on the return value. -/
lemma Handled.settle {todo : List Addr} (h : s.Handled a r b f todo) (hclean : s.Clean b todo)
    (retval : ℤ) : ∃ r' b' f', (s.settle retval a).Sound r' b' f' := by
  unfold SelectLoop.settle
  split_ifs
  · exact ⟨r.erase a, a :: b, f, h.blockRequest hclean⟩
  · exact h.freeRequest (fun w hw => .inr (hclean w hw)) fun _ => hclean
  · exact ⟨r, b, f, Handled.sound h.phase h.lists ((List.suffix_cons a todo).trans h.suffix)
      h.current h.armed hclean⟩
  · have hconns : ∀ x, x ≠ a →
        (s.server.setConn a (s.server.conns a).die).conns x = s.server.conns x :=
      fun x hx => Function.update_of_ne hx ..
    have hsound : SelectLoop.Sound { s with server := s.server.setConn a (s.server.conns a).die }
        r b f :=
      Handled.sound h.phase (h.lists.setConn a _) ((List.suffix_cons a todo).trans h.suffix)
        h.current (h.armed_congr hconns) (h.clean_congr hclean hconns)
    exact ⟨r, b, f, hsound⟩

/-- **A turn of `process_requests`**, or its end. -/
lemma Sound.turn (h : s.Sound r b f) (hphase : s.phase = .requests) (env : Env) {acc : AcceptEnv}
    (hacc : AcceptEnv.Fresh s.server acc)
    (hapart : ∀ a, s.server.current = some a →
      ∀ x ∈ b, ¬(s.handle env a).2.req.Owns (s.awaited x)) :
    ∃ r' b' f', (s.turn env acc).Sound r' b' f' := by
  have hin := h.phase
  rw [InPhase, hphase] at hin
  obtain ⟨todo', hround, harmed, hclean⟩ := hin
  cases todo' with
  | nil =>
      have hcurrent : s.server.current = none := hround.current_eq
      unfold SelectLoop.turn
      rw [hcurrent]
      exact ⟨r, b, f, h.lists, harmed, hclean⟩
  | cons a todo =>
      have hcurrent : s.server.current = some a := hround.current_eq
      have hturn : s.turn env acc = SelectLoop.settle (s.handle env a).1 a { s with
          server := s.server.passOn s.settings.cfg s.settings.limit acc a (s.handle env a).2 } := by
        unfold SelectLoop.turn
        rw [hcurrent]
        rfl
      rw [hturn]
      specialize hapart a hcurrent
      have hlate := fun h => handle_of_timedOut (s := s) (a := a) h env
      generalize s.handle env a = res at hlate hapart
      obtain ⟨new, f', hlists, hpassed⟩ :=
        hround.passOn h.lists s.settings.cfg s.settings.limit_le hacc res.2
      generalize s.server.passOn s.settings.cfg s.settings.limit acc a res.2 = server
        at hlists hpassed
      have har : a ∈ r := hround.suffix.subset List.mem_cons_self
      have htodo : todo ⊆ r := fun x hx => hround.suffix.subset (List.mem_cons_of_mem a hx)
      have hne : ∀ x ∈ b, x ≠ a := fun x hx hxa => h.lists.shape.ready_block har (hxa ▸ hx)
      have hnet : ∀ x ∈ todo, x ≠ a := fun x hx hxa => hpassed.nodup.not_mem_erase
        ((suffix_erase hpassed.nodup hpassed.suffix).subset (hxa ▸ hx))
      have hb : ∀ x ∈ b, server.conns x = s.server.conns x := fun x hx =>
        hpassed.conns x (List.mem_append_right r hx) (hne x hx)
      have ht : ∀ x ∈ todo, server.conns x = s.server.conns x := fun x hx =>
        hpassed.conns x (List.mem_append_left b (htodo hx)) (hnet x hx)
      have hhandled : Handled { s with server := server } a (new ++ r) b f' todo := by
        refine ⟨hlists, hphase, hpassed.suffix, hpassed.current, harmed.congr hb, fun x hx => ?_⟩
        have hw : awaited { s with server := server } x = s.awaited x := awaited_congr rfl (hb x hx)
        rw [hw, hpassed.conn]
        exact hapart x hx
      by_cases hstatus : (s.server.conns a).req.status = .timedOut
      · obtain ⟨hret, hend, hstatus', howns⟩ := hlate hstatus
        have hplace : freeRequestPlace (server.conns a) = .free := by
          rw [hpassed.conn, freeRequestPlace, if_neg fun hflush => hflush.1 hend, releasePlace,
            if_neg]
          exact fun hkeeps => absurd hkeeps.1 (by rw [hstatus']; decide)
        rw [hret, SelectLoop.settle, if_neg (by decide), if_pos rfl]
        refine hhandled.freeRequest (fun w hw => ?_) fun hnot => absurd hplace hnot
        rcases hclean w hw with h' | ⟨x, hx, h'⟩ | ⟨x, hx, h'⟩
        · exact .inr (.inl h')
        · have hw : awaited { s with server := server } x = s.awaited x :=
            awaited_congr rfl (hb x hx)
          exact .inr (.inr (.inl ⟨x, hx, h'.trans hw.symm⟩))
        · rcases List.mem_cons.mp hx with rfl | hx
          · left
            show (server.conns x).req.Owns w
            rw [hpassed.conn]
            exact (howns w).mpr h'.2
          · refine .inr (.inr (.inr ⟨x, hx, ?_⟩))
            show (server.conns x).req.status = .timedOut ∧ (server.conns x).req.Owns w
            rw [ht x hx]
            exact h'
      · refine hhandled.settle ?_ res.1
        have hclean' : s.Clean b todo := by
          intro w hw
          rcases hclean w hw with h' | h' | ⟨x, hx, h'⟩
          · exact .inl h'
          · exact .inr (.inl h')
          · rcases List.mem_cons.mp hx with rfl | hx
            · exact absurd h'.1 hstatus
            · exact .inr (.inr ⟨x, hx, h'⟩)
        exact hclean'.congr hb ht

/-! ### Runs -/

/-- The arrival of `SIGTERM` leaves everything else as it is. -/
lemma Sound.raise (h : s.Sound r b f) (hzero : s.sigtermFlag = 0) :
    Sound { s with sigtermFlag := 1 } r b f := by
  have hclean : ∀ b late, s.Clean b late → Clean { s with sigtermFlag := 1 } b late := by
    intro b late hclean w hw
    rcases hclean w hw with h' | h' | h'
    · exact .inl ⟨h'.1, Nat.one_lt_two⟩
    · exact .inr (.inl h')
    · exact .inr (.inr h')
  have hlt : s.sigtermFlag < 2 := by omega
  refine ⟨h.lists, ?_⟩
  have hin := h.phase
  rw [InPhase] at hin ⊢
  dsimp only
  cases hphase : s.phase with
  | signals =>
      rw [hphase] at hin
      exact ⟨hin.1, hclean b [] hin.2⟩
  | arm =>
      rw [hphase] at hin
      exact ⟨hin.1, hclean b [] hin.2⟩
  | select =>
      rw [hphase] at hin
      exact ⟨hin.1, hclean b [] hin.2.1, fun _ => hin.2.2 hlt⟩
  | selected =>
      rw [hphase] at hin
      exact ⟨hclean b [] hin.1, fun _ => hin.2 hlt⟩
  | update current =>
      rw [hphase] at hin
      obtain ⟨done, todo, hsplit, hcurrent, harmed, hin⟩ := hin
      exact ⟨done, todo, hsplit, hcurrent, harmed, hclean b r hin⟩
  | requests =>
      rw [hphase] at hin
      obtain ⟨todo, hround, harmed, hin⟩ := hin
      exact ⟨todo, hround, harmed, hclean b todo hin⟩
  | exited => trivial

/-- **One step of the loop** keeps the sets. -/
lemma Sound.step (h : s.Sound r b f) {op : Op} (hlegal : s.Legal op) (hsep : s.Separate op) :
    ∃ r' b' f', (s.step op).Sound r' b' f' := by
  cases op with
  | sigterm =>
      refine ⟨r, b, f, ?_⟩
      unfold SelectLoop.step
      dsimp only
      split_ifs with hzero
      · exact h.raise hzero
      · exact h
  | go ans =>
      obtain ⟨hserver, hupdate, hturn⟩ := hsep b h.lists.shape.block
      unfold SelectLoop.step
      dsimp only
      split_ifs
      · exact ⟨r, b, f, h⟩
      · cases hphase : s.phase with
        | signals =>
            obtain ⟨f', hsound⟩ := h.signals hphase hlegal.2
            exact ⟨r, b, f', hsound⟩
        | arm => exact ⟨r, b, f, h.armServer hphase (hserver hphase)⟩
        | select => exact ⟨r, b, f, h.callSelect hphase ans.select⟩
        | selected => exact ⟨r, b, f, h.afterSelect hphase⟩
        | update current =>
            cases current with
            | none =>
                obtain ⟨r', f', hsound⟩ := h.startRequests hphase hlegal.1
                exact ⟨r', b, f', hsound⟩
            | some a =>
                obtain ⟨hown, hapart⟩ := hupdate a hphase
                obtain ⟨r', b', hsound⟩ := h.fdsetUpdate hphase hown hapart ans.timeSince
                exact ⟨r', b', f, hsound⟩
        | requests => exact h.turn hphase ans.env hlegal.1 fun a => hturn a hphase
        | exited => exact ⟨r, b, f, h⟩

lemma sound_initial (set : LoopSettings) (serverS : ℤ) : (initial set serverS).Sound [] [] [] :=
  ⟨Server.lists_empty _, fun _ hx => absurd hx List.not_mem_nil, fun _ hw => nomatch hw⟩

/-- `select` is called, and every bit that has been set or cleared is one of an `fd_set`. -/
def AtSelect (s : SelectLoop) : Prop := s.phase = .select ∧ s.maxFd ≠ 0 ∧ s.overrun = false

instance (s : SelectLoop) : Decidable s.AtSelect := inferInstanceAs (Decidable (_ ∧ _))

/-- What `select` is told to wait for: each blocked request that is not passed over, and the
listening socket up to the limit on connections and before `SIGTERM` has been noticed; and nothing
else. -/
structure Watches (s : SelectLoop) (b : List Addr) : Prop where
  blocked : ∀ a ∈ b, ¬PassedOver s.settings.cfg (s.server.conns a).req → s.Watched (s.awaited a)
  listening : s.sigtermFlag < 2 → s.server.total ≤ s.settings.limit → s.Watched (s.serverS, .read)
  only : ∀ w, s.sets w = true → (∃ a ∈ b, w = s.awaited a) ∨
    w = (s.serverS, .read) ∧ s.sigtermFlag < 2 ∧ s.server.total ≤ s.settings.limit

lemma Sound.watches (h : s.Sound r b f) (hphase : s.phase = .select) : s.Watches b := by
  have hin := h.phase
  rw [InPhase, hphase] at hin
  obtain ⟨harmed, hclean, hlisten⟩ := hin
  refine ⟨harmed, fun hflag htotal => ?_, fun w hw => ?_⟩
  · have hlisten' := hlisten hflag
    rwa [if_pos htotal] at hlisten'
  · rcases hclean w hw with ⟨rfl, hflag⟩ | h' | ⟨x, hx, -⟩
    · refine .inr ⟨rfl, hflag, ?_⟩
      have hlisten' := hlisten hflag
      by_contra hfull
      rw [if_neg hfull, hw] at hlisten'
      cases hlisten'
    · exact .inl h'
    · exact absurd hx List.not_mem_nil

/-- A server with room for two connections. -/
def selectServer : SelectLoop := initial { maxConnections := 2 } 3

/-- A connection is waiting to be accepted. -/
def readableServer : List Op :=
  [.go {}, .go {}, .go { select := .ok fun _ => true }, .go {}]

/-- It is accepted, and waits for its header. -/
def firstBlocked : List Op :=
  readableServer ++ .go { acc := ⟨{}, .ok 7 true [] [] 0, some 1⟩ } :: List.replicate 3 (.go {})

/-- Nothing is asked of `malloc` and of the configuration where neither is used. -/
lemma legal_quiet {op : Op} (h : op ∈ readableServer ∨ op ∈ List.replicate 3 (.go {}))
    (s : SelectLoop) : s.Legal op := by
  have hop : op = .go {} ∨ op = .go { select := .ok fun _ => true } := by
    simp [readableServer] at h
    tauto
  rcases hop with rfl | rfl <;> exact ⟨by simp [AcceptEnv.Fresh], by simp⟩

lemma legal_firstBlocked : Run.Allowed step Legal selectServer firstBlocked := by
  refine Run.allowed_append.mpr
    ⟨Run.allowed_of_forall (fun op hop s => legal_quiet (.inl hop) s) _, ⟨?_, by simp⟩,
      Run.allowed_of_forall (fun op hop s => legal_quiet (.inr hop) s) _⟩
  have hnone : ∀ l : Option Addr, l = none → ¬Server.OnList
      (Run.runs step selectServer readableServer).server l 1 := by
    rintro l rfl
    exact Server.not_onList (Represents.nil _) List.not_mem_nil
  rintro a ⟨⟩
  exact ⟨hnone _ (by decide +kernel), hnone _ (by decide +kernel), hnone _ (by decide +kernel)⟩

/-- Nothing is asked of a step without requests at hand, where the listening socket is left
alone or no request is blocked. -/
def Quiet (s : SelectLoop) : Prop :=
  s.phase = .signals ∨ s.phase = .requests ∧ s.server.current = none ∨
    s.server.block = none ∧ (s.phase = .update none ∨ s.phase = .arm ∨ s.phase = .select ∨
      s.phase = .selected ∨ s.phase = .requests)

instance (s : SelectLoop) : Decidable s.Quiet := inferInstanceAs (Decidable (_ ∨ _))

lemma Quiet.separate (h : s.Quiet) (op : Op) : s.Separate op := by
  cases op with
  | sigterm => trivial
  | go ans =>
      intro b hb
      rcases h with hphase | ⟨hphase, hcurrent⟩ | ⟨hblock, hphase⟩
      · simp [hphase]
      · simp [hphase, hcurrent]
      · obtain rfl : b = [] := List.head?_eq_none_iff.mp (hb.head_eq.symm.trans hblock)
        refine ⟨by simp, fun a ha => ?_, by simp⟩
        rw [ha] at hphase
        simp at hphase

end SelectLoop

end Yabwf
