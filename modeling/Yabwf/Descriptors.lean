import Yabwf.Lib.Ledger
import Yabwf.Body
import Yabwf.HeaderEnd
import Yabwf.Progress

/-!
The account of the descriptors that the server opens for a request.

* `Holds`: what has been opened and not been closed is what the fields of the request name, and
  what the function at hand has not put away yet.
* `initCgi_holds`, `initGet_holds`: the functions that start a response put away what they open.
* `writeBody_holds` to `processDone_holds`: so do the handlers behind the header.
-/

namespace Yabwf

open Memory Ledger

/-! ### Accounts -/

/-- The entry of an event in the account of the descriptors. -/
def Event.ledgerOp : Event → Option (Ledger.Op ℕ)
  | .opened fd => some (.acquire fd)
  | .closed fd => some (.release fd)
  | _ => none

/-- The account of the descriptors. -/
def descriptorOps (t : List Event) : List (Ledger.Op ℕ) := t.filterMap Event.ledgerOp

lemma descriptorOps_append (t t' : List Event) :
    descriptorOps (t ++ t') = descriptorOps t ++ descriptorOps t' := List.filterMap_append

lemma descriptorOps_eq_nil {es : List Event} (h : ∀ e ∈ es, e.ledgerOp = none) :
    descriptorOps es = [] := List.filterMap_eq_nil_iff.mpr h

/-- The descriptors in `data_fd` and `post_data_fd`. -/
def fdList (data post : ℕ) : List ℕ :=
  (if data ≠ 0 then [data] else []) ++ if post ≠ 0 then [post] else []

lemma fdList_zero : fdList 0 0 = [] := rfl

lemma fdList_data {data : ℕ} (h : data ≠ 0) (post : ℕ) :
    fdList data post = data :: fdList 0 post := by
  rw [fdList, if_pos h]
  rfl

lemma fdList_post {post : ℕ} (h : post ≠ 0) (data : ℕ) :
    (fdList data post).Perm (post :: fdList data 0) := by
  rw [fdList, fdList, if_pos h, if_neg (not_not.mpr rfl), List.append_nil]
  exact List.perm_append_singleton post _

lemma mem_fdList {fd data post : ℕ} (h : fd ∈ fdList data post) :
    fd ≠ 0 ∧ (fd = data ∨ fd = post) := by
  rw [fdList, List.mem_append] at h
  rcases h with h | h
  · split_ifs at h with hne
    · rw [List.mem_singleton] at h
      exact ⟨h ▸ hne, Or.inl h⟩
    · cases h
  · split_ifs at h with hne
    · rw [List.mem_singleton] at h
      exact ⟨h ▸ hne, Or.inr h⟩
    · cases h

/-- The kernel gives descriptors that are not in use: neither one of the standard streams nor one
of the list. -/
structure Env.Fresh (env : Env) (used : List ℕ) : Prop where
  file : ∀ path fd st contents, env.openFile path = .ok fd st contents → 2 < fd ∧ fd ∉ used
  cache : ∀ fd st contents, env.reopenCache = .ok fd st contents → 2 < fd ∧ fd ∉ used
  pipe : ∀ readEnd writeEnd, env.pipe = some (readEnd, writeEnd) →
    (2 < readEnd ∧ readEnd ∉ used) ∧ (2 < writeEnd ∧ writeEnd ∉ used) ∧ readEnd ≠ writeEnd
  temporary : ∀ fd, env.mkstemp = some fd → 2 < fd ∧ fd ∉ used

lemma Env.Fresh.mono {env : Env} {used used' : List ℕ} (h : env.Fresh used) (hsub : used' ⊆ used) :
    env.Fresh used' where
  file path fd st contents hopen :=
    (h.file path fd st contents hopen).imp_right fun hnot hmem => hnot (hsub hmem)
  cache fd st contents hopen :=
    (h.cache fd st contents hopen).imp_right fun hnot hmem => hnot (hsub hmem)
  pipe readEnd writeEnd hpipe := by
    obtain ⟨hread, hwrite, hne⟩ := h.pipe readEnd writeEnd hpipe
    exact ⟨hread.imp_right fun hnot hmem => hnot (hsub hmem),
      hwrite.imp_right fun hnot hmem => hnot (hsub hmem), hne⟩
  temporary fd htmp := (h.temporary fd htmp).imp_right fun hnot hmem => hnot (hsub hmem)

/-- The account of a connection: `tmp` is what the function at hand has opened and not put away,
and `lo` a bound for the status. -/
def Holds (lo : ℕ) (tmp : List ℕ) (c : Conn) : Prop :=
  lo ≤ c.req.status.code ∧
    Balances (descriptorOps c.trace) (tmp ++ fdList c.req.dataFd c.req.postDataFd)

variable {lo fd post : ℕ} {tmp tmp' : List ℕ} {c d : Conn}

namespace Holds

lemma perm (h : Holds lo tmp c) (ht : tmp.Perm tmp') : Holds lo tmp' c :=
  ⟨h.1, h.2.perm (ht.append_right _)⟩

lemma mono {lo' : ℕ} (h : Holds lo tmp c) (hlo : lo' ≤ lo) : Holds lo' tmp c :=
  ⟨hlo.trans h.1, h.2⟩

/-- Events that neither open nor close. -/
lemma congr (h : Holds lo tmp c) (hstatus : lo ≤ d.req.status.code)
    (hdata : d.req.dataFd = c.req.dataFd) (hpost : d.req.postDataFd = c.req.postDataFd)
    (hevents : ∃ es, d.trace = c.trace ++ es ∧ ∀ e ∈ es, e.ledgerOp = none) :
    Holds lo tmp d := by
  obtain ⟨es, htrace, hes⟩ := hevents
  refine ⟨hstatus, ?_⟩
  rw [htrace, descriptorOps_append, descriptorOps_eq_nil hes, List.append_nil, hdata, hpost]
  exact h.2

lemma emit (h : Holds lo tmp c) {e : Event} (he : e.ledgerOp = none) :
    Holds lo tmp (c.emit e) :=
  h.congr h.1 rfl rfl ⟨[e], rfl, List.forall_mem_singleton.mpr he⟩

lemma outputs (h : Holds lo tmp c) (hlo : lo ≤ ReqStatus.done.code) (hout : Outputs c d) :
    Holds lo tmp d := by
  obtain ⟨es, htrace, hes⟩ := hout.events
  refine h.congr ?_ hout.dataFd hout.postDataFd ⟨es, htrace, fun e he => ?_⟩
  · rcases hout.status with hs | hs
    · rw [hs]
      exact h.1
    · exact hlo.trans hs
  · have hkind := hes e he
    cases e <;> first | rfl | cases hkind

/-- A descriptor is opened. -/
lemma opened (h : Holds lo tmp c) (htmp : fd ∉ tmp)
    (hfds : fd ∉ fdList c.req.dataFd c.req.postDataFd) :
    Holds lo (fd :: tmp) (c.emit (.opened fd)) := by
  refine ⟨h.1, ?_⟩
  rw [Conn.emit_trace, descriptorOps_append]
  exact h.2.acquire fun hmem => (List.mem_append.mp hmem).elim htmp hfds

/-- A descriptor at hand is closed. -/
lemma closed (h : Holds lo (fd :: tmp) c) : Holds lo tmp (c.emit (.closed fd)) := by
  refine ⟨h.1, ?_⟩
  rw [Conn.emit_trace, descriptorOps_append]
  exact h.2.release

/-- A descriptor at hand is put into `data_fd`. -/
lemma keepData (h : Holds lo (fd :: tmp) c) (hfd : fd ≠ 0) (hdata : c.req.dataFd = 0)
    (hnew : d.req.dataFd = fd) (hstatus : lo ≤ d.req.status.code)
    (hpost : d.req.postDataFd = c.req.postDataFd) (htrace : d.trace = c.trace) :
    Holds lo tmp d := by
  refine ⟨hstatus, ?_⟩
  have hbal := h.2
  rw [hdata] at hbal
  rw [htrace, hnew, hpost, fdList_data hfd]
  exact hbal.perm List.perm_middle.symm

/-- A descriptor at hand is put into `post_data_fd`. -/
lemma keepPost (h : Holds lo (fd :: tmp) c) (hfd : fd ≠ 0) (hpost : c.req.postDataFd = 0)
    (hnew : d.req.postDataFd = fd) (hstatus : lo ≤ d.req.status.code)
    (hdata : d.req.dataFd = c.req.dataFd) (htrace : d.trace = c.trace) : Holds lo tmp d := by
  refine ⟨hstatus, ?_⟩
  have hbal := h.2
  rw [hpost] at hbal
  rw [htrace, hnew, hdata]
  exact hbal.perm (List.perm_middle.symm.trans (((fdList_post hfd _).symm).append_left tmp))

/-- `data_fd` is closed. -/
lemma closeData (h : Holds lo tmp c) (hdata : c.req.dataFd ≠ 0) : Holds lo tmp c.closeData := by
  refine ⟨h.1, ?_⟩
  have hbal := h.2
  rw [fdList_data hdata] at hbal
  rw [Conn.closeData, Conn.upd_trace, Conn.emit_trace, descriptorOps_append]
  exact (hbal.perm List.perm_middle).release

/-- `post_data_fd` is closed. -/
lemma closePost (h : Holds lo tmp c) (hpost : c.req.postDataFd ≠ 0) :
    Holds lo tmp ((c.emit (.closed c.req.postDataFd)).upd fun r => { r with postDataFd := 0 }) := by
  refine ⟨h.1, ?_⟩
  have hbal := h.2.perm (((fdList_post hpost _).append_left tmp).trans List.perm_middle)
  rw [Conn.upd_trace, Conn.emit_trace, descriptorOps_append]
  exact hbal.release

lemma ite {α : Type} {p : Prop} [Decidable p] {a b : α × Conn} (h : Holds lo tmp a.2)
    (h' : Holds lo tmp b.2) : Holds lo tmp (if p then a else b).2 := by
  split_ifs
  · exact h
  · exact h'

end Holds

/-- A request that holds nothing but the file of its `POST`. -/
def Idle (lo post : ℕ) (tmp : List ℕ) (c : Conn) : Prop :=
  Holds lo tmp c ∧ c.req.dataFd = 0 ∧ c.req.postDataFd = post ∧ (c.req.method = .post → post ≠ 0)

namespace Idle

lemma holds (h : Idle lo post tmp c) : Holds lo tmp c := h.1

lemma outputs (h : Idle lo post tmp c) (hlo : lo ≤ ReqStatus.done.code) (hout : Outputs c d) :
    Idle lo post tmp d :=
  ⟨h.1.outputs hlo hout, hout.dataFd.trans h.2.1, hout.postDataFd.trans h.2.2.1, by
    rw [hout.method]
    exact h.2.2.2⟩

lemma emit (h : Idle lo post tmp c) {e : Event} (he : e.ledgerOp = none) :
    Idle lo post tmp (c.emit e) := ⟨h.1.emit he, h.2⟩

lemma opened (h : Idle lo post tmp c) (htmp : fd ∉ tmp) (hfd : 2 < fd ∧ fd ∉ [post]) :
    Idle lo post (fd :: tmp) (c.emit (.opened fd)) := by
  refine ⟨h.1.opened htmp fun hmem => ?_, h.2⟩
  rw [h.2.1, h.2.2.1] at hmem
  rcases (mem_fdList hmem).2 with rfl | rfl
  · omega
  · exact hfd.2 (List.mem_singleton_self _)

lemma closed (h : Idle lo post (fd :: tmp) c) : Idle lo post tmp (c.emit (.closed fd)) :=
  ⟨h.1.closed, h.2⟩

/-- A descriptor is opened and closed at once. -/
lemma brief (h : Idle lo post tmp c) (htmp : fd ∉ tmp) (hfd : 2 < fd ∧ fd ∉ [post]) :
    Idle lo post tmp ((c.emit (.opened fd)).emit (.closed fd)) := (h.opened htmp hfd).closed

lemma ite {α : Type} {p : Prop} [Decidable p] {a b : α × Conn} (h : Idle lo post tmp a.2)
    (h' : Idle lo post tmp b.2) : Idle lo post tmp (if p then a else b).2 := by
  split_ifs
  · exact h
  · exact h'

end Idle

/-! ### Scripts -/

lemma addCgiEnv_env (r : Request) (key value : Bytes) (http : Bool) :
    ∃ env index,
      (addCgiEnv r key value http).2 = { r with cgiEnv := env, cgiEnvIndex := index } := by
  rw [addCgiEnv]
  split_ifs <;> exact ⟨_, _, rfl⟩

lemma addCgiEnvs_env (vars : List (Bytes × Bytes)) (r : Request) :
    ∃ env index, (addCgiEnvs vars r).2 = { r with cgiEnv := env, cgiEnvIndex := index } := by
  induction vars generalizing r with
  | nil => exact ⟨_, _, rfl⟩
  | cons v vars ih =>
      obtain ⟨key, value⟩ := v
      have hadd := addCgiEnv_env r key value false
      rw [addCgiEnvs]
      generalize addCgiEnv r key value false = res at hadd ⊢
      obtain ⟨ok, r'⟩ := res
      cases ok with
      | true =>
          obtain ⟨_, _, hr⟩ := hadd
          dsimp only at hr
          subst hr
          exact ih _
      | false => exact hadd

/-- `complete_env` changes nothing but the environment. -/
lemma completeEnv_env (cfg : Config) (r : Request) :
    ∃ env index, (completeEnv cfg r).2 = { r with cgiEnv := env, cgiEnvIndex := index } := by
  have hadd := addCgiEnvs_env (completeEnvVars cfg { r with
    cgiEnv := fun i => if i < cfg.commonCgiEnv.length then cfg.commonCgiEnv[i]? else r.cgiEnv i })
    { r with
      cgiEnv := fun i => if i < cfg.commonCgiEnv.length then cfg.commonCgiEnv[i]? else r.cgiEnv i }
  rw [completeEnv]
  generalize addCgiEnvs _ _ = res at hadd ⊢
  obtain ⟨ok, r'⟩ := res
  obtain ⟨_, _, heq⟩ := hadd
  cases ok with
  | true =>
      dsimp only at heq ⊢
      split_ifs
      · exact ⟨_, _, by rw [heq]⟩
      · exact ⟨_, _, heq⟩
  | false => exact ⟨_, _, heq⟩

/-- The ends of a pipe, as `init_cgi` has them at hand. -/
def pipeEnds (pipes : Option (ℕ × ℕ)) : List ℕ := pipes.elim [] fun ends => [ends.2, ends.1]

lemma closePipe_holds (pipes : Option (ℕ × ℕ)) (h : Holds lo (pipeEnds pipes) c) :
    Holds lo [] (closePipe pipes c) := by
  cases pipes with
  | none => exact h
  | some ends => exact (h.perm (List.Perm.swap _ _ _)).closed.closed

/-- What starting a response leaves: a request that goes on is past its body. -/
def Starts (lo : ℕ) (res : ℤ × Conn) : Prop :=
  Holds lo [] res.2 ∧ (res.1 ≠ 0 → ReqStatus.write.code ≤ res.2.req.status.code)

lemma Starts.ended (h : Holds lo [] c) : Starts lo (0, c) := ⟨h, fun hne => absurd rfl hne⟩

lemma Starts.ite {p : Prop} [Decidable p] {a b : ℤ × Conn} (h : Starts lo a)
    (h' : Starts lo b) : Starts lo (if p then a else b) := by
  split_ifs
  · exact h
  · exact h'

/-- A request that is past its body already. -/
lemma Starts.of_write {res : ℤ × Conn} (h : Holds ReqStatus.write.code [] res.2) :
    Starts ReqStatus.write.code res := ⟨h, fun _ => h.1⟩

section

variable (hlo : lo ≤ ReqStatus.write.code)

include hlo

lemma initCgiParent_holds (pipes : Option (ℕ × ℕ)) (hends : ∀ fd ∈ pipeEnds pipes, fd ≠ 0)
    (h : Idle lo post (pipeEnds pipes) c) : Starts lo (initCgiParent pipes c) := by
  have hclosed : Holds lo (pipeEnds pipes) (if c.req.method = .post then
      (c.emit (.closed c.req.postDataFd)).upd fun r => { r with postDataFd := 0 } else c) ∧
      (if c.req.method = .post then
        (c.emit (.closed c.req.postDataFd)).upd fun r => { r with postDataFd := 0 }
          else c).req.dataFd = 0 := by
    split_ifs with hmethod
    · exact ⟨h.holds.closePost (by rw [h.2.2.1]; exact h.2.2.2 hmethod), h.2.1⟩
    · exact ⟨h.holds, h.2.1⟩
  simp only [initCgiParent]
  generalize (if c.req.method = .post then _ else c : Conn) = d at hclosed ⊢
  obtain ⟨hholds, hdata⟩ := hclosed
  cases pipes with
  | none => exact Starts.ended hholds
  | some ends =>
      have hread : ends.1 ≠ 0 := hends _ (List.mem_cons_of_mem _ (List.mem_singleton_self _))
      have hpipe : ReqStatus.write.code ≤ ReqStatus.pipeRead.code := by decide
      refine ⟨?_, fun _ => hpipe⟩
      exact (Holds.closed hholds).keepData hread hdata rfl (hlo.trans hpipe) rfl rfl

lemma initCgiFork_holds (cfg : Config) (env : Env) (pipes : Option (ℕ × ℕ))
    (hends : ∀ fd ∈ pipeEnds pipes, fd ≠ 0) (h : Idle lo post (pipeEnds pipes) c) :
    Starts lo (initCgiFork cfg env pipes c) := by
  refine Starts.ite ?_ (Starts.ended ?_)
  · have hevents : ∀ e ∈ childEvent cfg c.req, e.ledgerOp = none := by
      unfold childEvent
      extract_lets path
      split_ifs <;> simp [Event.ledgerOp]
    have hchild : Idle lo post (pipeEnds pipes)
        { c with trace := c.trace ++ childEvent cfg c.req } :=
      ⟨h.holds.congr h.holds.1 rfl rfl ⟨_, rfl, hevents⟩, h.2⟩
    exact initCgiParent_holds hlo pipes hends hchild
  · exact closePipe_holds pipes
      (h.holds.outputs (hlo.trans (by decide)) (sendRError_outputs cfg env c))

lemma initCgiPipes_holds (cfg : Config) {env : Env} (hfresh : env.Fresh [post])
    (h : Idle lo post [] c) :
    Starts lo (initCgiPipes cfg env c) := by
  refine Starts.ite ?_ (initCgiFork_holds hlo cfg env none (by simp [pipeEnds]) h)
  cases hpipe : env.pipe with
  | none => exact Starts.ended h.holds
  | some ends =>
      obtain ⟨hread, hwrite, hne⟩ := hfresh.pipe ends.1 ends.2 hpipe
      have hopened : Idle lo post (pipeEnds (some ends))
          ((c.emit (.opened ends.1)).emit (.opened ends.2)) :=
        (h.opened List.not_mem_nil hread).opened
          (fun hmem => hne (List.mem_singleton.mp hmem).symm) hwrite
      have hends : ∀ fd ∈ pipeEnds (some ends), fd ≠ 0 := by
        intro fd hfd
        rcases List.mem_cons.mp hfd with rfl | hfd
        · omega
        · rw [List.mem_singleton.mp hfd]
          omega
      exact Starts.ite (initCgiFork_holds hlo cfg env _ hends hopened)
        (Starts.ended (closePipe_holds _ hopened.holds))

/-- `init_cgi`. -/
lemma initCgi_holds (cfg : Config) {env : Env} (hfresh : env.Fresh [post]) (h : Idle lo post [] c) :
    Starts lo (initCgi cfg env c) := by
  have hsquash : Idle lo post [] c.squashKa := h
  refine Starts.ite (initCgiPipes_holds hlo cfg hfresh hsquash) ?_
  obtain ⟨_, _, hreq⟩ := completeEnv_env cfg c.squashKa.req
  generalize completeEnv cfg c.squashKa.req = res at hreq ⊢
  obtain ⟨ok, r⟩ := res
  dsimp only at hreq
  subst hreq
  cases ok with
  | true => exact initCgiPipes_holds hlo cfg hfresh hsquash
  | false => exact Starts.ended hsquash.holds

end

/-! ### Documents -/

lemma advance_holds (k : ℕ) (h : Holds lo tmp c) :
    Holds lo tmp (c.upd fun r => r.advance k) := by
  obtain ⟨_, hadvance⟩ : ∃ ranges, c.req.advance k = { c.req with ranges := ranges } := by
    rw [Request.advance]
    split
    · exact ⟨_, rfl⟩
    · exact ⟨_, rfl⟩
  have hreq : (c.upd fun r => r.advance k).req = c.req.advance k := rfl
  rw [hadvance] at hreq
  exact h.congr (by rw [hreq]; exact h.1) (by rw [hreq]) (by rw [hreq])
    ⟨[], (List.append_nil _).symm, fun e he => absurd he List.not_mem_nil⟩

lemma sent_holds (k : ℕ) (h : Holds lo tmp c) : Holds lo tmp (c.sent k) :=
  advance_holds k h

lemma append_holds (bs : Bytes) (h : Holds lo tmp c) : Holds lo tmp (c.append bs) :=
  h.congr h.1 rfl rfl ⟨[.buffered bs], rfl, List.forall_mem_singleton.mpr rfl⟩

/-- What the search for the file of a directory leaves: the file that it has found is open. -/
def FoundHolds (lo post : ℕ) (res : DirResult × Conn) : Prop :=
  match res.1 with
  | .ret _ => Holds lo [] res.2
  | .file fd _ _ _ => (2 < fd ∧ fd ∉ [post]) ∧ Idle lo post [fd] res.2

lemma FoundHolds.ite {p : Prop} [Decidable p] {a b : DirResult × Conn}
    (h : FoundHolds lo post a) (h' : FoundHolds lo post b) :
    FoundHolds lo post (if p then a else b) := by
  split_ifs
  · exact h
  · exact h'

/-- The access rules do not refuse the file name of the request. -/
def NameAllowed (cfg : Config) (r : Request) : Prop :=
  ¬(cfg.accessControl = true ∧ accessAllow cfg (r.pathname.getD []) = .deny)

section

variable (hlo : lo ≤ ReqStatus.write.code) (cfg : Config) {env : Env}

include hlo

lemma gunzipResponse_holds (hfresh : env.Fresh [post]) (path : Bytes) {fields : Conn → Conn}
    (hfields : ∀ c, Outputs c (fields c)) (h : Idle lo post [] c) :
    Holds lo [] (gunzipResponse cfg env path fields c).2 := by
  have hdone : lo ≤ ReqStatus.done.code := hlo.trans (by decide)
  have hset : Idle lo post []
      (c.upd fun r => { r with responseStatus := 200, pathname := some path }) := h
  rw [gunzipResponse]
  generalize (c.upd fun r => { r with responseStatus := 200, pathname := some path }) = d
    at hset ⊢
  have hhead : Idle lo post [] (if d.req.httpVersion = .http09 then d
      else (reqFlush (d |> statusLine cfg env " 200 OK-GUNZIP\r\n" |> fields)).2) := by
    split_ifs
    · exact hset
    · exact hset.outputs hdone
        (((statusLine_outputs cfg env _ d).trans (hfields _)).trans (reqFlush_outputs _))
  exact Holds.ite hhead.holds (initCgi_holds hlo cfg hfresh hhead).1

lemma indexDirectory_holds (env : Env) (h : Idle lo post [] c) :
    Idle lo post [] (indexDirectory cfg env c).2 := by
  have hdone : lo ≤ ReqStatus.done.code := hlo.trans (by decide)
  rw [indexDirectory]
  cases env.chdir with
  | denied => exact h.outputs hdone (sendRForbidden_outputs cfg env c)
  | other => exact h.outputs hdone (sendRBadRequest_outputs cfg env c)
  | ok =>
      exact Idle.ite (h.outputs hdone (sendRError_outputs cfg env c))
        (Idle.ite (h.outputs hdone (sendRError_outputs cfg env c)) h)

lemma getCachedirFile_holds (hfresh : env.Fresh [post]) (cachedir : Bytes) (st : Stat)
    (h : Idle lo post [] c) :
    FoundHolds lo post (getCachedirFile cfg env cachedir st c) := by
  have hdone : lo ≤ ReqStatus.done.code := hlo.trans (by decide)
  unfold getCachedirFile
  extract_lets path found make
  have hmake {d : Conn} (hd : Idle lo post [] d) : FoundHolds lo post (make d) := by
    have hindex := indexDirectory_holds hlo cfg env hd
    dsimp only [make]
    generalize indexDirectory cfg env d = res at hindex ⊢
    obtain ⟨ret, e⟩ := res
    cases ret with
    | false => exact hindex.holds
    | true =>
        have herror : Holds lo [] (boaPerror cfg env e) :=
          hindex.holds.outputs hdone (sendRError_outputs cfg env e)
        cases hcache : env.reopenCache with
        | ok fd st' contents =>
            have hfd := hfresh.cache fd st' contents hcache
            exact ⟨hfd, hindex.opened List.not_mem_nil hfd⟩
        | enoent => exact herror
        | eacces => exact herror
        | other => exact herror
  clear_value make
  cases hopen : env.openFile path with
  | ok fd st' contents =>
      have hfd := hfresh.file path fd st' contents hopen
      exact FoundHolds.ite ⟨hfd, h.opened List.not_mem_nil hfd⟩
        (hmake (h.brief List.not_mem_nil hfd))
  | enoent => exact hmake h
  | eacces => exact hmake h
  | other => exact hmake h

lemma getDirListing_holds (hfresh : env.Fresh [post]) (st : Stat) (h : Idle lo post [] c) :
    FoundHolds lo post (getDirListing cfg env st c) := by
  have hdone : lo ≤ ReqStatus.done.code := hlo.trans (by decide)
  rw [getDirListing]
  cases cfg.dirmaker with
  | some maker =>
      have hset : Idle lo post [] (c.setResponse 200).squashKa := h
      dsimp only
      generalize (c.setResponse 200).squashKa = d at hset ⊢
      have hhead : Idle lo post [] (if d.req.httpVersion = .http09 then d
          else (reqFlush (d |> statusLine cfg env " 200 OK\r\n" |> printLastModified env
            |> reqWrite (str "Content-Type: text/html\r\n\r\n"))).2) := by
        split_ifs
        · exact hset
        · exact hset.outputs hdone ((((statusLine_outputs cfg env _ d).trans
            (printLastModified_outputs env _)).trans (reqWrite_outputs _ _)).trans
              (reqFlush_outputs _))
      exact FoundHolds.ite hhead.holds (initCgi_holds hlo cfg hfresh hhead).1
  | none =>
      cases cfg.cachedir with
      | some cachedir => exact getCachedirFile_holds hlo cfg hfresh cachedir st h
      | none => exact h.holds.outputs hdone (sendRForbidden_outputs cfg env c)

lemma getDir_holds (hfresh : env.Fresh [post]) (st : Stat) (h : Idle lo post [] c) :
    FoundHolds lo post (getDir cfg env st c) := by
  have hdone : lo ≤ ReqStatus.done.code := hlo.trans (by decide)
  have hlisting := getDirListing_holds hlo cfg hfresh st h
  unfold getDir
  cases cfg.directoryIndex with
  | none => exact hlisting
  | some index =>
      refine FoundHolds.ite (h.holds.outputs hdone (sendRError_outputs cfg env c)) ?_
      cases hopen : env.openFile (c.req.pathname.getD [] ++ index) with
      | ok fd st' contents =>
          have hfd := hfresh.file _ fd st' contents hopen
          exact ⟨hfd, h.opened List.not_mem_nil hfd⟩
      | eacces => exact h.holds.outputs hdone (sendRForbidden_outputs cfg env c)
      | other => exact h.holds.outputs hdone (sendRNotFound_outputs cfg env c)
      | enoent =>
          refine FoundHolds.ite hlisting ?_
          cases hgz : env.openFile (c.req.pathname.getD [] ++ index ++ str ".gz") with
          | ok fd st' contents =>
              have hbrief : Idle lo post []
                  ((c.emit (.opened fd)).emit (.closed fd)).squashKa :=
                h.brief List.not_mem_nil (hfresh.file _ fd st' contents hgz)
              refine gunzipResponse_holds hlo cfg hfresh _ (fun d => ?_) hbrief
              exact (((printLastModified_outputs env d).trans (reqWrite_outputs _ _)).trans
                (reqWrite_outputs _ _)).trans (reqWrite_outputs _ _)
          | enoent => exact hlisting
          | eacces => exact hlisting
          | other => exact hlisting

lemma fillBuffer_holds (env : Env) (h : Holds lo [] c) : Holds lo [] (fillBuffer cfg env c).2 := by
  have hdone : lo ≤ ReqStatus.done.code := hlo.trans (by decide)
  have hsent (bs : Bytes) : Holds lo [] ((c.append bs).sent bs.length) :=
    sent_holds _ (append_holds bs h)
  rcases fillBuffer_cases cfg env c with heq | heq | ⟨bs, -, -, heq | heq⟩
  · rw [heq]
    exact h
  · rw [heq]
    have hreset : Holds lo [] (resetOutputBuffer c) := h.emit rfl
    exact hreset.outputs hdone (sendRError_outputs cfg env _)
  · rw [heq]
    exact (hsent bs).outputs hdone (completeResponse_outputs cfg _)
  · rw [heq]
    exact hsent bs

lemma sendFileHeader_holds (env : Env) (path : Bytes) (h : Holds lo [] c) :
    Holds lo [] (sendFileHeader cfg env path c).2 := by
  have hdone : lo ≤ ReqStatus.done.code := hlo.trans (by decide)
  have hsend {d : Conn} (hd : Holds lo [] d) : Holds lo []
      (if d.req.method = .head then completeResponse cfg d
        else fillBuffer cfg env (d.emit (.served path))).2 :=
    Holds.ite (hd.outputs hdone (completeResponse_outputs cfg d))
      (fillBuffer_holds hlo cfg env (hd.emit rfl))
  refine Holds.ite ?_ (hsend (h.outputs hdone (sendRPartialContent_outputs cfg env c)))
  have hset : Holds lo [] (c.upd fun r => { r with ranges := [⟨0, ulongMax⟩] }) := h
  have hfix := hset.outputs hdone (rangesFixup_outputs cfg env
    (c.upd fun r => { r with ranges := [⟨0, ulongMax⟩] }))
  generalize rangesFixup cfg env (c.upd fun r => { r with ranges := [⟨0, ulongMax⟩] }) = res
    at hfix ⊢
  obtain ⟨ret, d⟩ := res
  cases ret with
  | true => exact hsend (hfix.outputs hdone (sendRRequestOk_outputs cfg env d))
  | false => exact hfix

omit cfg in
lemma attachFile_holds (env : Env) (hfd : fd ≠ 0) (contents : Mem) (h : Idle lo post [fd] c) :
    Holds lo [] (attachFile env fd contents c) := by
  rw [attachFile]
  split_ifs
  · have hshuffle : ReqStatus.write.code ≤ ReqStatus.ioShuffle.code := by decide
    exact h.holds.keepData hfd h.2.1 rfl (hlo.trans hshuffle) rfl rfl
  · have hmapped : Holds lo [fd]
        (c.upd fun r => { r with mmapEntry := true, dataMem := some contents }) := h.holds
    exact hmapped.closed

lemma serveFile_holds (env : Env) (hfd : fd ≠ 0) (st : Stat) (contents : Mem) (path : Bytes)
    (h : Idle lo post [fd] c) :
    Holds lo [] (serveFile cfg env fd st contents path c).2 := by
  have hdone : lo ≤ ReqStatus.done.code := hlo.trans (by decide)
  have hclosed {d e : Conn} (hd : Idle lo post [fd] d) (hout : Outputs d e) :
      Holds lo [] (e.emit (.closed fd)) := (hd.outputs hdone hout).closed.holds
  have hset : Idle lo post [fd]
      (c.upd fun r => { r with filesize := st.size, lastModified := st.mtime }) := h
  refine Holds.ite (hclosed h (sendRBadRequest_outputs cfg env c))
    (Holds.ite (hclosed h (sendRNotModified_outputs cfg env c)) ?_)
  dsimp only
  generalize (c.upd fun r => { r with filesize := st.size, lastModified := st.mtime }) = d
    at hset ⊢
  refine Holds.ite (Holds.ite (hclosed hset (sendRNoContent_outputs cfg env d))
    (hclosed hset (sendRRequestOk_outputs cfg env d))) ?_
  have hfix : Idle lo post [fd]
      (if d.req.ranges = [] then (true, d) else rangesFixup cfg env d).2 :=
    Idle.ite hset (hset.outputs hdone (rangesFixup_outputs cfg env d))
  generalize (if d.req.ranges = [] then (true, d) else rangesFixup cfg env d) = res at hfix ⊢
  obtain ⟨ret, e⟩ := res
  cases ret with
  | true => exact sendFileHeader_holds hlo cfg env path (attachFile_holds hlo env hfd contents hfix)
  | false => exact hfix.closed.holds

lemma initGetOpened_holds (hfresh : env.Fresh [post]) (hallow : NameAllowed cfg c.req)
    (hfd : fd ≠ 0) (st : Stat) (contents : Mem) (h : Idle lo post [fd] c) :
    Holds lo [] (initGetOpened cfg env fd st contents c).2 := by
  have hdone : lo ≤ ReqStatus.done.code := hlo.trans (by decide)
  unfold initGetOpened
  dsimp only
  -- the rules have been asked for the same name before
  rw [if_neg hallow]
  refine Holds.ite (serveFile_holds hlo cfg env hfd st contents _ h) ?_
  have hclose := h.closed
  generalize c.emit (.closed fd) = d at hclose ⊢
  refine Holds.ite ?_ ?_
  · cases directoryUrl cfg d.req with
    | none => exact hclose.holds.outputs hdone (sendRError_outputs cfg env d)
    | some url => exact hclose.holds.outputs hdone (sendRMovedPerm_outputs cfg env url d)
  · have hdir := getDir_holds hlo cfg hfresh st hclose
    generalize getDir cfg env st d = dir at hdir ⊢
    obtain ⟨res, e⟩ := dir
    cases res with
    | ret value => exact hdir
    | file fd' st' contents' path =>
        obtain ⟨⟨hlt, -⟩, hidle⟩ := hdir
        have hnone : ¬(fd' = 0 ∨ fd' = 1) := by omega
        dsimp only
        rw [if_neg hnone]
        exact serveFile_holds hlo cfg env (by omega) st' contents' path hidle

lemma openFailed_holds (env : Env) (res : OpenResult) (h : Holds lo [] c) :
    Holds lo [] (openFailed cfg env res c).2 := by
  have hdone : lo ≤ ReqStatus.done.code := hlo.trans (by decide)
  cases res with
  | enoent => exact h.outputs hdone (sendRNotFound_outputs cfg env c)
  | eacces => exact h.outputs hdone (sendRForbidden_outputs cfg env c)
  | other => exact h.outputs hdone (sendRBadRequest_outputs cfg env c)
  | ok fd st contents => exact h.outputs hdone (sendRBadRequest_outputs cfg env c)

/-- `init_get`. -/
lemma initGet_holds (hfresh : env.Fresh [post]) (hallow : NameAllowed cfg c.req)
    (h : Idle lo post [] c) : Holds lo [] (initGet cfg env c).2 := by
  have hdone : lo ≤ ReqStatus.done.code := hlo.trans (by decide)
  unfold initGet
  extract_lets path
  cases hopen : env.openFile path with
  | ok fd st contents =>
      have hfd := hfresh.file path fd st contents hopen
      have hname : NameAllowed cfg (c.emit (.opened fd)).req := hallow
      have hne : fd ≠ 0 := by omega
      exact initGetOpened_holds hlo cfg hfresh hname hne st contents
        (h.opened List.not_mem_nil hfd)
  | enoent =>
      refine Holds.ite (openFailed_holds hlo cfg env _ h.holds)
        (Holds.ite (h.holds.outputs hdone (sendRBadRequest_outputs cfg env c)) ?_)
      cases hgz : env.openFile (path ++ str ".gz") with
      | ok fd st contents =>
          have hbrief := h.brief List.not_mem_nil (hfresh.file _ fd st contents hgz)
          refine gunzipResponse_holds hlo cfg hfresh _ (fun d => ?_) hbrief
          exact ((printContentType_outputs cfg d).trans (printLastModified_outputs env _)).trans
            (reqWrite_outputs _ _)
      | enoent => exact openFailed_holds hlo cfg env _ h.holds
      | eacces => exact openFailed_holds hlo cfg env _ h.holds
      | other => exact openFailed_holds hlo cfg env _ h.holds
  | eacces => exact openFailed_holds hlo cfg env _ h.holds
  | other => exact openFailed_holds hlo cfg env _ h.holds

end

/-! ### Handlers -/

/-- The file of a `POST` stays at hand while its body is stored. -/
lemma readBody_holds (cfg : Config) (env : Env) (h : Idle ReqStatus.bodyRead.code post [] c) :
    Idle ReqStatus.bodyRead.code post [] (readBody cfg env c).2 := by
  have hdone : ReqStatus.bodyRead.code ≤ ReqStatus.done.code := by decide
  have hbody : ReqStatus.bodyRead.code ≤ ReqStatus.bodyWrite.code := by decide
  have hset {d : Conn} (hd : Idle ReqStatus.bodyRead.code post [] d) :
      Idle ReqStatus.bodyRead.code post [] (d.setStatus .bodyWrite) :=
    ⟨⟨hbody, hd.1.2⟩, hd.2⟩
  have hstore (p : Ptr) (bs : Bytes) :
      ∃ stream buf, c.req.storeAt p bs = { c.req with clientStream := stream, buffer := buf } := by
    rw [Request.storeAt]
    cases p.region <;> exact ⟨_, _, rfl⟩
  have hperror := h.outputs hdone (sendRError_outputs cfg env c)
  unfold readBody
  extract_lets bytesFree bytesToRead
  refine Idle.ite (hset h) ?_
  cases env.sockRead with
  | again => exact h
  | intr => exact hperror
  | error => exact hperror
  | data bs =>
      refine Idle.ite (h.outputs hdone (sendRBadRequest_outputs cfg env c)) (hset ?_)
      obtain ⟨_, _, heq⟩ := hstore c.req.headerEnd (bs.take bytesToRead)
      rw [Conn.upd, heq]
      exact h

/-- A script is started, or the file stays at hand. -/
lemma writeBody_holds (cfg : Config) {env : Env} (hfresh : env.Fresh [post])
    (h : Idle ReqStatus.bodyRead.code post [] c) :
    Starts ReqStatus.bodyRead.code (writeBody cfg env c) ∨
      Idle ReqStatus.bodyRead.code post [] (writeBody cfg env c).2 := by
  have hbody : ReqStatus.bodyRead.code ≤ ReqStatus.bodyRead.code := le_rfl
  have hrewind : Idle ReqStatus.bodyRead.code post [] c.rewind := h
  rcases writeBody_cases cfg env c with ⟨-, ⟨-, heq⟩ | ⟨-, heq⟩⟩
    | ⟨-, ⟨-, heq⟩ | ⟨-, heq⟩ | ⟨-, heq⟩ | ⟨k, -, heq⟩⟩
  · rw [heq]
    exact Or.inl (initCgi_holds (by decide) cfg hfresh hrewind)
  · rw [heq]
    exact Or.inr ⟨⟨hbody, hrewind.1.2⟩, hrewind.2⟩
  · rw [heq]
    exact Or.inr h
  · rw [heq]
    exact Or.inr h
  · rw [heq]
    exact Or.inr (h.outputs (by decide) (sendRError_outputs cfg env c))
  · rw [heq]
    exact Or.inr h

section

variable (hlo : lo ≤ ReqStatus.write.code)

include hlo

lemma setTape_die_holds (t : List WriteResult) (h : Holds lo tmp c) :
    Holds lo tmp (c.setTape t).die := by
  have hset : Holds lo tmp (c.setTape t) := h
  exact hset.outputs (hlo.trans (by decide)) (die_outputs _)

omit hlo in
lemma wrote_holds (t : List WriteResult) (bs : Bytes) (h : Holds lo tmp c) :
    Holds lo tmp ((c.setTape t).wrote bs) := by
  have hset : Holds lo tmp (c.setTape t) := h
  exact sent_holds bs.length (hset.emit rfl)

lemma processGet_holds (cfg : Config) (env : Env) (h : Holds lo tmp c) :
    Holds lo tmp (processGet cfg env c).2 := by
  have hdone : lo ≤ ReqStatus.done.code := hlo.trans (by decide)
  rcases processGet_cases cfg env c with heq | ⟨t, heq⟩ | ⟨t, -, heq⟩ | ⟨t, bs, -, heq | heq⟩
  · rw [heq]
    exact h.outputs hdone (completeResponse_outputs cfg c)
  · rw [heq]
    exact setTape_die_holds hlo t h
  · rw [heq]
    exact h
  · rw [heq]
    exact (wrote_holds t bs h).outputs hdone (completeResponse_outputs cfg _)
  · rw [heq]
    exact wrote_holds t bs h

lemma ioShuffleSendfile_holds (cfg : Config) (h : Holds lo tmp c) :
    Holds lo tmp (ioShuffleSendfile cfg c).2 := by
  have hdone : lo ≤ ReqStatus.done.code := hlo.trans (by decide)
  rcases ioShuffleSendfile_cases cfg c with heq | heq | ⟨t, heq⟩ | ⟨t, -, heq⟩
    | ⟨t, bs, -, heq | heq⟩
  · rw [heq]
    exact h.outputs hdone (completeResponse_outputs cfg c)
  · rw [heq]
    exact h
  · rw [heq]
    exact setTape_die_holds hlo t h
  · rw [heq]
    exact h
  · rw [heq]
    exact (wrote_holds t bs h).outputs hdone (completeResponse_outputs cfg _)
  · rw [heq]
    exact wrote_holds t bs h

lemma ioShuffleWrite_holds (h : Holds lo tmp c) : Holds lo tmp (ioShuffleWrite c).2 := by
  have hdrained (t : List WriteResult) (k : ℕ) :
      Holds lo tmp ((c.setTape t).drained k) := by
    have hset : Holds lo tmp (c.setTape t) := h
    exact hset.emit (e := .flushed ((c.setTape t).req.buffer.slice (c.setTape t).req.bufferStart k))
      rfl
  rcases ioShuffleWrite_cases c with ⟨-, ⟨-, heq⟩ | heq⟩ | ⟨t, -, -, heq⟩ | ⟨t, heq⟩
    | ⟨t, k, -, ⟨-, heq⟩ | heq⟩
  · rw [heq]
    exact h
  · rw [heq]
    exact h
  · rw [heq]
    exact h
  · rw [heq]
    exact setTape_die_holds hlo t h
  · rw [heq]
    exact hdrained t k
  · rw [heq]
    exact hdrained t k

lemma ioShuffle_holds (cfg : Config) (env : Env) (h : Holds lo tmp c) :
    Holds lo tmp (ioShuffle cfg env c).2 := by
  have hdone : lo ≤ ReqStatus.done.code := hlo.trans (by decide)
  have hshuffled (bs : Bytes) : Holds lo tmp (c.shuffled bs) :=
    advance_holds _ (append_holds bs h)
  rcases ioShuffle_cases cfg env c with heq | heq | ⟨-, -, -, heq⟩ | heq | ⟨-, hdata, heq⟩
    | ⟨bs, -, -, -, heq | heq⟩
  · rw [heq]
    exact h.outputs hdone (completeResponse_outputs cfg c)
  · rw [heq]
    exact h.outputs hdone (die_outputs c)
  · rw [heq]
    exact h
  · rw [heq]
    exact ioShuffleWrite_holds hlo h
  · rw [heq]
    exact ioShuffleWrite_holds hlo (h.closeData hdata)
  · rw [heq]
    exact (hshuffled bs).outputs hdone (completeResponse_outputs cfg _)
  · rw [heq]
    exact ioShuffleWrite_holds hlo (hshuffled bs)

lemma writeFromPipe_holds (h : Holds lo tmp c) : Holds lo tmp (writeFromPipe c).2 := by
  have hpipe : lo ≤ ReqStatus.pipeRead.code := hlo.trans (by decide)
  have hread {d : Conn} (hd : Holds lo tmp d) :
      Holds lo tmp (d.setStatus .pipeRead).rewind := ⟨hpipe, hd.2⟩
  have hpiped (t : List WriteResult) (k : ℕ) : Holds lo tmp ((c.setTape t).pipedOut k) := by
    have hset : Holds lo tmp (c.setTape t) := h
    exact hset.emit (e := .wrote (c.setTape t).req.bufferStart (c.setTape t).req.bufferEnd
      ((c.setTape t).req.buffer.slice (c.setTape t).req.headerLine.off k)) rfl
  rcases writeFromPipe_cases c with ⟨-, ⟨-, heq⟩ | ⟨-, heq⟩⟩ | ⟨t, -, heq⟩ | ⟨t, heq⟩ | ⟨t, heq⟩
    | ⟨t, k, -, ⟨-, heq⟩ | ⟨-, heq⟩⟩
  · rw [heq]
    exact h
  · rw [heq]
    exact hread h
  · rw [heq]
    exact h
  · rw [heq]
    exact h
  · rw [heq]
    exact setTape_die_holds hlo t h
  · rw [heq]
    exact hread (hpiped t k)
  · rw [heq]
    exact hpiped t k

lemma cgiLocation_holds (cfg : Config) (env : Env) (buf : ℕ) (h : Holds lo tmp c) :
    Holds lo tmp (cgiLocation cfg env buf c) := by
  have hdone : lo ≤ ReqStatus.done.code := hlo.trans (by decide)
  have hcut : Holds lo tmp (c.endLocation buf) := by
    obtain ⟨m, hm⟩ := c.endLocation_eq buf
    rw [hm]
    exact h
  rcases cgiLocation_cases cfg env buf c with heq | ⟨url, moreHdr, heq⟩
  · rw [heq]
    exact h.outputs hdone (sendRBadRequest_outputs cfg env c)
  · rw [heq]
    exact hcut.outputs hdone (sendRMovedTemp_outputs cfg env url moreHdr _)

lemma cgiMerge_holds (cfg : Config) (env : Env) (blank : ℕ) (h : Holds lo tmp c) :
    Holds lo tmp (cgiMerge cfg env blank c).2 := by
  have hdone : lo ≤ ReqStatus.done.code := hlo.trans (by decide)
  have hok := h.outputs hdone (sendRRequestOk_outputs cfg env c)
  unfold cgiMerge
  extract_lets d e howmuch e₁ e₂
  have hd : Holds lo tmp d := hok
  have he : Holds lo tmp e := by
    show Holds lo tmp (if d.req.method = .head then _ else d)
    split_ifs <;> exact hd
  clear_value e
  refine Holds.ite ?_ ?_
  · have hclear : Holds lo tmp (e.upd fun r => { r with bufferStart := 0, bufferEnd := 0 }) := he
    exact (hclear.emit rfl).outputs hdone (sendRError_outputs cfg env _)
  · have hmerged : Holds lo tmp e₁ := append_holds _ he
    exact hmerged.outputs hdone (reqFlush_outputs e₁)

lemma processCgiHeader_holds (cfg : Config) (env : Env) (h : Holds lo tmp c) :
    Holds lo tmp (processCgiHeader cfg env c).2 := by
  have hdone : lo ≤ ReqStatus.done.code := hlo.trans (by decide)
  have hbegun : Holds lo tmp c.cgiBegun := h
  rcases processCgiHeader_cases cfg env c with heq | ⟨k, -, ⟨-, heq⟩ | heq | ⟨-, heq⟩ | heq⟩
  · rw [heq]
    exact hbegun.outputs hdone (sendRBadGateway_outputs cfg env _)
  · rw [heq]
    exact h
  · rw [heq]
    exact h
  · rw [heq]
    exact ⟨hdone, (cgiLocation_holds hlo cfg env c.req.headerLine.off hbegun).2⟩
  · rw [heq]
    exact cgiMerge_holds hlo cfg env _ hbegun

lemma readFromPipe_holds (cfg : Config) (env : Env) (h : Holds lo tmp c) :
    Holds lo tmp (readFromPipe cfg env c).2 := by
  have hdone : lo ≤ ReqStatus.done.code := hlo.trans (by decide)
  have hpipe : lo ≤ ReqStatus.pipeWrite.code := hlo.trans (by decide)
  have hpiped (bs : Bytes) : Holds lo tmp (c.pipedIn bs) := h
  have heof : Holds lo tmp c.pipeEof := ⟨hpipe, h.2⟩
  rcases readFromPipe_cases cfg env c with ⟨-, ⟨-, heq⟩ | ⟨-, heq⟩⟩
    | ⟨-, ⟨-, heq⟩ | ⟨-, heq⟩ | ⟨-, heq⟩ | ⟨-, ⟨-, heq⟩ | ⟨-, heq⟩⟩
      | ⟨b, bs, -, ⟨-, heq⟩ | ⟨-, heq⟩ | ⟨-, heq⟩⟩⟩
  · rw [heq]
    have hheader : Holds lo tmp (c.toCgiHeader .buffer) := h
    exact processCgiHeader_holds hlo cfg env hheader
  · rw [heq]
    exact ⟨hpipe, h.2⟩
  · rw [heq]
    exact h
  · rw [heq]
    exact h
  · rw [heq]
    exact h.outputs hdone (die_outputs c)
  · rw [heq]
    exact processCgiHeader_holds hlo cfg env heof
  · rw [heq]
    exact heof
  · rw [heq]
    exact writeFromPipe_holds hlo (hpiped _)
  · rw [heq]
    exact h
  · rw [heq]
    have hheader (bs : Bytes) : Holds lo tmp ((c.pipedIn bs).toCgiHeader .done) := h
    exact processCgiHeader_holds hlo cfg env (hheader _)

lemma processDone_holds (h : Holds lo tmp c) : Holds lo tmp (processDone c).2 := by
  have hdone : lo ≤ ReqStatus.done.code := hlo.trans (by decide)
  have hdead : lo ≤ ReqStatus.dead.code := hlo.trans (by decide)
  have hflush := h.outputs hdone (reqFlush_outputs c)
  rw [processDone]
  generalize reqFlush c = res at hflush ⊢
  obtain ⟨retval, d⟩ := res
  exact Holds.ite ⟨hdead, hflush.2⟩ (Holds.ite hflush hflush)

end

end Yabwf
