import Yabwf.Body
import Yabwf.HeaderEnd
import Yabwf.Visit

/-!
A request that has left its header does not go back to it.

* `Busy`: the header is over.
* `Quiet`: no end of a header and no end of a request is recorded.
* `Moves`: a function is quiet and keeps the method, and a busy request busy.
* `initCgi_leads`, `initGet_moves`: so do the functions that start a response.
* `handleStatus_busy`: the handlers end a busy request or leave it busy.
-/

namespace Yabwf

open Memory

/-- The header of the request is over. -/
def Busy (c : Conn) : Prop := ReqStatus.bodyRead.code ≤ c.req.status.code

/-- The ends of headers and of requests. -/
def Event.isMark : Event → Bool
  | .headerEnd | .freed _ _ _ => true
  | _ => false

/-- Neither is recorded, and the request stays where it is. -/
structure Quiet (c d : Conn) : Prop where
  events : ∃ es, d.trace = c.trace ++ es ∧ ∀ e ∈ es, e.isMark = false
  free : d.free = c.free

namespace Quiet

variable {c d e : Conn}

lemma of_eq (htrace : d.trace = c.trace) (hfree : d.free = c.free) : Quiet c d :=
  ⟨⟨[], by rw [htrace, List.append_nil], fun _ h => absurd h List.not_mem_nil⟩, hfree⟩

lemma refl (c : Conn) : Quiet c c := of_eq rfl rfl

lemma trans (h : Quiet c d) (h' : Quiet d e) : Quiet c e := by
  obtain ⟨es, htrace, hes⟩ := h.events
  obtain ⟨es', htrace', hes'⟩ := h'.events
  refine ⟨⟨es ++ es', ?_, List.forall_mem_append.mpr ⟨hes, hes'⟩⟩, h'.free.trans h.free⟩
  rw [htrace', htrace, List.append_assoc]

lemma emit {ev : Event} (h : ev.isMark = false) (c : Conn) : Quiet c (c.emit ev) :=
  ⟨⟨[ev], rfl, List.forall_mem_singleton.mpr h⟩, rfl⟩

/-- One event, with changes to the request. -/
lemma of_emit {ev : Event} (htrace : d.trace = c.trace ++ [ev]) (hfree : d.free = c.free)
    (h : ev.isMark = false) : Quiet c d :=
  ⟨⟨[ev], htrace, List.forall_mem_singleton.mpr h⟩, hfree⟩

lemma of_outputs (h : Outputs c d) : Quiet c d := by
  obtain ⟨es, htrace, hes⟩ := h.events
  refine ⟨⟨es, htrace, fun ev hev => ?_⟩, h.free⟩
  have hout := hes ev hev
  cases ev <;> first | rfl | cases hout

end Quiet

/-- The method is kept, and so is a busy status; no header ends. -/
structure Moves (c d : Conn) : Prop where
  method : d.req.method = c.req.method
  busy : Busy c → Busy d
  quiet : Quiet c d

namespace Moves

variable {c d e : Conn}

lemma refl (c : Conn) : Moves c c := ⟨rfl, id, Quiet.refl c⟩

lemma trans (h : Moves c d) (h' : Moves d e) : Moves c e :=
  ⟨h'.method.trans h.method, h'.busy ∘ h.busy, h.quiet.trans h'.quiet⟩

lemma of_outputs (h : Outputs c d) : Moves c d := by
  refine ⟨h.method, fun hbusy => ?_, Quiet.of_outputs h⟩
  rcases h.status with hs | hs
  · rw [Busy, hs]
    exact hbusy
  · exact (show ReqStatus.bodyRead.code ≤ ReqStatus.done.code by decide).trans hs

/-- Nothing is changed but other fields. -/
lemma of_same (hmethod : d.req.method = c.req.method) (hstatus : d.req.status = c.req.status)
    (hquiet : Quiet c d) : Moves c d := ⟨hmethod, fun h => by rwa [Busy, hstatus], hquiet⟩

/-- Nothing but the request is changed. -/
lemma of_upd (hmethod : d.req.method = c.req.method) (hstatus : d.req.status = c.req.status)
    (htrace : d.trace = c.trace) (hfree : d.free = c.free) : Moves c d :=
  of_same hmethod hstatus (Quiet.of_eq htrace hfree)

lemma emit {ev : Event} (h : ev.isMark = false) (c : Conn) : Moves c (c.emit ev) :=
  of_same rfl rfl (Quiet.emit h c)

/-- The status becomes one behind the header. -/
lemma of_busy (hmethod : d.req.method = c.req.method) (h : Busy d) (hquiet : Quiet c d) :
    Moves c d := ⟨hmethod, fun _ => h, hquiet⟩

lemma ite {α : Type} {p : Prop} [Decidable p] {a b : α × Conn} (h : Moves c a.2)
    (h' : Moves c b.2) : Moves c (if p then a else b).2 := by
  split_ifs
  · exact h
  · exact h'

end Moves

/-! ### Scripts -/

lemma addCgiEnv_same (r : Request) (key value : Bytes) (http : Bool) :
    (addCgiEnv r key value http).2.method = r.method ∧
      (addCgiEnv r key value http).2.status = r.status := by
  rw [addCgiEnv]
  split_ifs <;> exact ⟨rfl, rfl⟩

lemma addCgiEnvs_same (vars : List (Bytes × Bytes)) (r : Request) :
    (addCgiEnvs vars r).2.method = r.method ∧ (addCgiEnvs vars r).2.status = r.status := by
  induction vars generalizing r with
  | nil => exact ⟨rfl, rfl⟩
  | cons v vars ih =>
      obtain ⟨key, value⟩ := v
      have hadd := addCgiEnv_same r key value false
      rw [addCgiEnvs]
      generalize addCgiEnv r key value false = res at hadd ⊢
      obtain ⟨ok, r'⟩ := res
      cases ok with
      | true => exact ⟨(ih r').1.trans hadd.1, (ih r').2.trans hadd.2⟩
      | false => exact hadd

lemma completeEnv_same (cfg : Config) (r : Request) :
    (completeEnv cfg r).2.method = r.method ∧ (completeEnv cfg r).2.status = r.status := by
  have hadd := addCgiEnvs_same (completeEnvVars cfg { r with
    cgiEnv := fun i => if i < cfg.commonCgiEnv.length then cfg.commonCgiEnv[i]? else r.cgiEnv i })
    { r with
      cgiEnv := fun i => if i < cfg.commonCgiEnv.length then cfg.commonCgiEnv[i]? else r.cgiEnv i }
  rw [completeEnv]
  generalize addCgiEnvs _ _ = res at hadd ⊢
  obtain ⟨ok, r'⟩ := res
  cases ok with
  | true =>
      dsimp only
      split_ifs <;> exact hadd
  | false => exact hadd

/-- A child is started, which makes the request busy, or the request ends. -/
structure Leads (c : Conn) (res : ℤ × Conn) : Prop where
  moves : Moves c res.2
  busy : res.1 ≠ 0 → Busy res.2

lemma Leads.ended {c d : Conn} (h : Moves c d) : Leads c (0, d) := ⟨h, fun hne => absurd rfl hne⟩

lemma Leads.ite {p : Prop} [Decidable p] {c : Conn} {a b : ℤ × Conn} (h : Leads c a)
    (h' : Leads c b) : Leads c (if p then a else b) := by
  split_ifs
  · exact h
  · exact h'

lemma Leads.trans {c d : Conn} {res : ℤ × Conn} (h : Moves c d) (h' : Leads d res) :
    Leads c res := ⟨h.trans h'.moves, h'.busy⟩

lemma closePipe_moves (pipes : Option (ℕ × ℕ)) (c : Conn) : Moves c (closePipe pipes c) := by
  cases pipes with
  | none => exact Moves.refl c
  | some ends => exact (Moves.emit rfl c).trans (Moves.emit rfl _)

lemma initCgiParent_leads (pipes : Option (ℕ × ℕ)) (c : Conn) :
    Leads c (initCgiParent pipes c) := by
  have hclosed : Moves c (if c.req.method = .post then
      (c.emit (.closed c.req.postDataFd)).upd fun r => { r with postDataFd := 0 } else c) := by
    split_ifs
    · exact (Moves.emit rfl c).trans (Moves.of_upd rfl rfl rfl rfl)
    · exact Moves.refl c
  simp only [initCgiParent]
  generalize (if c.req.method = .post then _ else c : Conn) = d at hclosed ⊢
  cases pipes with
  | none => exact Leads.ended hclosed
  | some ends =>
      have hpipe : ReqStatus.bodyRead.code ≤ ReqStatus.pipeRead.code := by decide
      exact Leads.trans hclosed
        ⟨Moves.of_busy rfl hpipe (Quiet.of_emit rfl rfl rfl), fun _ => hpipe⟩

lemma initCgiFork_leads (cfg : Config) (env : Env) (pipes : Option (ℕ × ℕ)) (c : Conn) :
    Leads c (initCgiFork cfg env pipes c) := by
  refine Leads.ite ?_ (Leads.ended ?_)
  · have hevents : ∀ e ∈ childEvent cfg c.req, e.isMark = false := by
      unfold childEvent
      extract_lets path
      split_ifs <;> simp [Event.isMark]
    have hchild : Moves c { c with trace := c.trace ++ childEvent cfg c.req } :=
      Moves.of_same rfl rfl ⟨⟨_, rfl, hevents⟩, rfl⟩
    exact Leads.trans hchild (initCgiParent_leads pipes _)
  · exact (Moves.of_outputs (sendRError_outputs cfg env c)).trans (closePipe_moves pipes _)

lemma initCgiPipes_leads (cfg : Config) (env : Env) (c : Conn) :
    Leads c (initCgiPipes cfg env c) := by
  refine Leads.ite ?_ (initCgiFork_leads cfg env none c)
  cases env.pipe with
  | none => exact Leads.ended (Moves.refl c)
  | some ends =>
      have hopened : Moves c ((c.emit (.opened ends.1)).emit (.opened ends.2)) :=
        (Moves.emit rfl c).trans (Moves.emit rfl _)
      exact Leads.trans hopened (Leads.ite (initCgiFork_leads cfg env _ _)
        (Leads.ended (closePipe_moves _ _)))

lemma initCgi_leads (cfg : Config) (env : Env) (c : Conn) : Leads c (initCgi cfg env c) := by
  have hsquash : Moves c c.squashKa := Moves.of_upd rfl rfl rfl rfl
  refine Leads.trans hsquash (Leads.ite (initCgiPipes_leads cfg env _) ?_)
  have hsame := completeEnv_same cfg c.squashKa.req
  generalize completeEnv cfg c.squashKa.req = res at hsame ⊢
  obtain ⟨ok, r⟩ := res
  have hr : Moves c.squashKa { c.squashKa with req := r } :=
    Moves.of_upd hsame.1 hsame.2 rfl rfl
  cases ok with
  | true => exact Leads.trans hr (initCgiPipes_leads cfg env _)
  | false => exact Leads.ended hr

/-! ### Documents -/

lemma completeResponse_moves (cfg : Config) (c : Conn) : Moves c (completeResponse cfg c).2 :=
  Moves.of_outputs (completeResponse_outputs cfg c)

lemma advance_moves (n : ℕ) (c : Conn) : Moves c (c.upd fun r => r.advance n) := by
  have hadvance : (c.req.advance n).method = c.req.method ∧
      (c.req.advance n).status = c.req.status := by
    rw [Request.advance]
    cases c.req.ranges <;> exact ⟨rfl, rfl⟩
  exact Moves.of_upd hadvance.1 hadvance.2 rfl rfl

lemma sent_moves (n : ℕ) (c : Conn) : Moves c (c.sent n) :=
  (advance_moves n c).trans (Moves.of_upd rfl rfl rfl rfl)

lemma gunzipResponse_moves (cfg : Config) (env : Env) (path : Bytes) {fields : Conn → Conn}
    (hfields : ∀ c, Outputs c (fields c)) (c : Conn) :
    Moves c (gunzipResponse cfg env path fields c).2 := by
  have hset : Moves c (c.upd fun r => { r with responseStatus := 200, pathname := some path }) :=
    Moves.of_upd rfl rfl rfl rfl
  refine hset.trans ?_
  rw [gunzipResponse]
  generalize (c.upd fun r => { r with responseStatus := 200, pathname := some path }) = d
  have hhead : Moves d (if d.req.httpVersion = .http09 then d
      else (reqFlush (d |> statusLine cfg env " 200 OK-GUNZIP\r\n" |> fields)).2) := by
    split_ifs
    · exact Moves.refl d
    · exact Moves.of_outputs (((statusLine_outputs cfg env _ d).trans (hfields _)).trans
        (reqFlush_outputs _))
  exact hhead.trans (Moves.ite (Moves.refl _) (initCgi_leads cfg env _).moves)

lemma indexDirectory_moves (cfg : Config) (env : Env) (c : Conn) :
    Moves c (indexDirectory cfg env c).2 := by
  rw [indexDirectory]
  cases env.chdir with
  | denied => exact Moves.of_outputs (sendRForbidden_outputs cfg env c)
  | other => exact Moves.of_outputs (sendRBadRequest_outputs cfg env c)
  | ok =>
      exact Moves.ite (Moves.of_outputs (sendRError_outputs cfg env c))
        (Moves.ite (Moves.of_outputs (sendRError_outputs cfg env c)) (Moves.of_upd rfl rfl rfl rfl))

lemma getCachedirFile_moves (cfg : Config) (env : Env) (cachedir : Bytes) (st : Stat) (c : Conn) :
    Moves c (getCachedirFile cfg env cachedir st c).2 :=
  getCachedirFile_invariant (P := Moves c) (Q := fun res => Moves c res.2)
    (fun _ h => h.trans (Moves.emit rfl _)) (fun _ h => h.trans (Moves.emit rfl _))
    (fun h => h.trans (indexDirectory_moves cfg env _))
    (fun _ _ _ _ h => h.trans (Moves.of_upd rfl rfl rfl rfl)) (fun h => h)
    (fun h => h.trans (Moves.of_outputs (sendRError_outputs cfg env _))) cachedir st (Moves.refl c)

lemma getDirListing_moves (cfg : Config) (env : Env) (st : Stat) (c : Conn) :
    Moves c (getDirListing cfg env st c).2 := by
  rw [getDirListing]
  cases cfg.dirmaker with
  | some maker =>
      have hset : Moves c (c.setResponse 200).squashKa := Moves.of_upd rfl rfl rfl rfl
      refine hset.trans ?_
      dsimp only
      generalize (c.setResponse 200).squashKa = d
      have hhead : Moves d (if d.req.httpVersion = .http09 then d
          else (reqFlush (d |> statusLine cfg env " 200 OK\r\n" |> printLastModified env
            |> reqWrite (str "Content-Type: text/html\r\n\r\n"))).2) := by
        split_ifs
        · exact Moves.refl d
        · exact Moves.of_outputs ((((statusLine_outputs cfg env _ d).trans
            (printLastModified_outputs env _)).trans (reqWrite_outputs _ _)).trans
              (reqFlush_outputs _))
      exact hhead.trans (Moves.ite (Moves.refl _) (initCgi_leads cfg env _).moves)
  | none =>
      cases cfg.cachedir with
      | some cachedir => exact getCachedirFile_moves cfg env cachedir st c
      | none => exact Moves.of_outputs (sendRForbidden_outputs cfg env c)

lemma getDir_moves (cfg : Config) (env : Env) (st : Stat) (c : Conn) :
    Moves c (getDir cfg env st c).2 := by
  unfold getDir
  cases cfg.directoryIndex with
  | none => exact getDirListing_moves cfg env st c
  | some index =>
      refine Moves.ite (Moves.of_outputs (sendRError_outputs cfg env c)) ?_
      cases env.openFile (c.req.pathname.getD [] ++ index) with
      | ok fd st' contents => exact Moves.of_same rfl rfl (Quiet.of_emit rfl rfl rfl)
      | eacces => exact Moves.of_outputs (sendRForbidden_outputs cfg env c)
      | other => exact Moves.of_outputs (sendRNotFound_outputs cfg env c)
      | enoent =>
          refine Moves.ite (getDirListing_moves cfg env st c) ?_
          cases env.openFile (c.req.pathname.getD [] ++ index ++ str ".gz") with
          | ok fd st' contents =>
              have hopen : Moves c ((c.emit (.opened fd)).emit (.closed fd)).squashKa :=
                ((Moves.emit rfl c).trans (Moves.emit rfl _)).trans (Moves.of_upd rfl rfl rfl rfl)
              refine hopen.trans (gunzipResponse_moves cfg env _ (fun d => ?_) _)
              exact (((printLastModified_outputs env d).trans (reqWrite_outputs _ _)).trans
                (reqWrite_outputs _ _)).trans (reqWrite_outputs _ _)
          | enoent => exact getDirListing_moves cfg env st c
          | eacces => exact getDirListing_moves cfg env st c
          | other => exact getDirListing_moves cfg env st c

lemma fillBuffer_moves (cfg : Config) (env : Env) (c : Conn) :
    Moves c (fillBuffer cfg env c).2 := by
  have hsent (bs : Bytes) : Moves c ((c.append bs).sent bs.length) :=
    (Moves.of_same rfl rfl (Quiet.of_emit rfl rfl rfl) : Moves c (c.append bs)).trans
      (sent_moves _ _)
  rcases fillBuffer_cases cfg env c with heq | heq | ⟨bs, -, -, heq | heq⟩
  · rw [heq]
    exact Moves.refl c
  · rw [heq]
    have hreset : Moves c (resetOutputBuffer c) := Moves.of_same rfl rfl (Quiet.of_emit rfl rfl rfl)
    exact hreset.trans (Moves.of_outputs (sendRError_outputs cfg env _))
  · rw [heq]
    exact (hsent bs).trans (completeResponse_moves cfg _)
  · rw [heq]
    exact hsent bs

lemma sendFileHeader_moves (cfg : Config) (env : Env) (path : Bytes) (c : Conn) :
    Moves c (sendFileHeader cfg env path c).2 := by
  have hsend : ∀ d : Conn, Moves d (if d.req.method = .head then completeResponse cfg d
      else fillBuffer cfg env (d.emit (.served path))).2 := fun d =>
    Moves.ite (completeResponse_moves cfg d)
      ((Moves.emit rfl d : Moves d (d.emit (.served path))).trans (fillBuffer_moves cfg env _))
  refine Moves.ite ?_
    ((Moves.of_outputs (sendRPartialContent_outputs cfg env c)).trans (hsend _))
  have hset : Moves c (c.upd fun r => { r with ranges := [⟨0, ulongMax⟩] }) :=
    Moves.of_upd rfl rfl rfl rfl
  have hfix := hset.trans (Moves.of_outputs (rangesFixup_outputs cfg env
    (c.upd fun r => { r with ranges := [⟨0, ulongMax⟩] })))
  generalize rangesFixup cfg env (c.upd fun r => { r with ranges := [⟨0, ulongMax⟩] }) = res
    at hfix ⊢
  obtain ⟨ret, d⟩ := res
  cases ret with
  | true =>
      exact hfix.trans ((Moves.of_outputs (sendRRequestOk_outputs cfg env d)).trans (hsend _))
  | false => exact hfix

lemma attachFile_moves (env : Env) (fd : ℕ) (contents : Mem) (c : Conn) :
    Moves c (attachFile env fd contents c) := by
  rw [attachFile]
  split_ifs
  · have hshuffle : ReqStatus.bodyRead.code ≤ ReqStatus.ioShuffle.code := by decide
    exact Moves.of_busy rfl hshuffle (Quiet.of_eq rfl rfl)
  · exact Moves.of_same rfl rfl (Quiet.of_emit rfl rfl rfl)

lemma serveFile_moves (cfg : Config) (env : Env) (fd : ℕ) (st : Stat) (contents : Mem)
    (path : Bytes) (c : Conn) : Moves c (serveFile cfg env fd st contents path c).2 := by
  have hclosed {d e : Conn} (h : Outputs d e) : Moves d (e.emit (.closed fd)) :=
    (Moves.of_outputs h).trans (Moves.emit rfl _)
  have hset : Moves c (c.upd fun r => { r with filesize := st.size, lastModified := st.mtime }) :=
    Moves.of_upd rfl rfl rfl rfl
  refine Moves.ite (hclosed (sendRBadRequest_outputs cfg env c))
    (Moves.ite (hclosed (sendRNotModified_outputs cfg env c)) (hset.trans ?_))
  dsimp only
  generalize (c.upd fun r => { r with filesize := st.size, lastModified := st.mtime }) = d
  refine Moves.ite (Moves.ite (hclosed (sendRNoContent_outputs cfg env d))
    (hclosed (sendRRequestOk_outputs cfg env d))) ?_
  have hfix : Moves d (if d.req.ranges = [] then (true, d) else rangesFixup cfg env d).2 :=
    Moves.ite (Moves.refl d) (Moves.of_outputs (rangesFixup_outputs cfg env d))
  generalize (if d.req.ranges = [] then (true, d) else rangesFixup cfg env d) = res at hfix ⊢
  obtain ⟨ret, e⟩ := res
  cases ret with
  | true =>
      exact hfix.trans ((attachFile_moves env fd contents e).trans
        (sendFileHeader_moves cfg env path _))
  | false => exact hfix.trans (Moves.emit rfl e)

lemma initGetOpened_moves (cfg : Config) (env : Env) (fd : ℕ) (st : Stat) (contents : Mem)
    (c : Conn) : Moves c (initGetOpened cfg env fd st contents c).2 := by
  have hclose : Moves c (c.emit (.closed fd)) := Moves.emit rfl c
  refine Moves.ite (Moves.of_outputs (sendRForbidden_outputs cfg env c))
    (Moves.ite (serveFile_moves cfg env fd st contents _ c) (hclose.trans ?_))
  generalize c.emit (.closed fd) = d
  refine Moves.ite ?_ ?_
  · cases directoryUrl cfg d.req with
    | none => exact Moves.of_outputs (sendRError_outputs cfg env d)
    | some url => exact Moves.of_outputs (sendRMovedPerm_outputs cfg env url d)
  · have hdir := getDir_moves cfg env st d
    generalize getDir cfg env st d = dir at hdir ⊢
    obtain ⟨res, e⟩ := dir
    cases res with
    | ret value => exact hdir
    | file fd' st' contents' path =>
        exact hdir.trans (Moves.ite (Moves.refl e)
          (serveFile_moves cfg env fd' st' contents' path e))

lemma openFailed_moves (cfg : Config) (env : Env) (res : OpenResult) (c : Conn) :
    Moves c (openFailed cfg env res c).2 := by
  cases res with
  | enoent => exact Moves.of_outputs (sendRNotFound_outputs cfg env c)
  | eacces => exact Moves.of_outputs (sendRForbidden_outputs cfg env c)
  | other => exact Moves.of_outputs (sendRBadRequest_outputs cfg env c)
  | ok fd st contents => exact Moves.of_outputs (sendRBadRequest_outputs cfg env c)

lemma initGet_moves (cfg : Config) (env : Env) (c : Conn) : Moves c (initGet cfg env c).2 := by
  unfold initGet
  extract_lets path
  cases env.openFile path with
  | ok fd st contents =>
      exact (Moves.emit rfl c : Moves c (c.emit (.opened fd))).trans
        (initGetOpened_moves cfg env fd st contents _)
  | enoent =>
      refine Moves.ite (openFailed_moves cfg env _ c)
        (Moves.ite (Moves.of_outputs (sendRBadRequest_outputs cfg env c)) ?_)
      cases env.openFile (path ++ str ".gz") with
      | ok fd st contents =>
          have hopen : Moves c ((c.emit (.opened fd)).emit (.closed fd)) :=
            (Moves.emit rfl c).trans (Moves.emit rfl _)
          refine hopen.trans (gunzipResponse_moves cfg env _ (fun d => ?_) _)
          exact ((printContentType_outputs cfg d).trans (printLastModified_outputs env _)).trans
            (reqWrite_outputs _ _)
      | enoent => exact openFailed_moves cfg env _ c
      | eacces => exact openFailed_moves cfg env _ c
      | other => exact openFailed_moves cfg env _ c
  | eacces => exact openFailed_moves cfg env _ c
  | other => exact openFailed_moves cfg env _ c

/-! ### Handlers -/

/-- The request ends, or is busy; no header ends. -/
structure EndsOrBusy (c : Conn) (res : ℤ × Conn) : Prop where
  quiet : Quiet c res.2
  busy : res.1 = 0 ∨ Busy res.2

section

variable {c d : Conn} {n : ℤ} {res : ℤ × Conn}

lemma EndsOrBusy.ended (h : Quiet c d) : EndsOrBusy c (0, d) := ⟨h, Or.inl rfl⟩

lemma EndsOrBusy.goes (h : Quiet c d) (hd : Busy d) : EndsOrBusy c (n, d) := ⟨h, Or.inr hd⟩

lemma EndsOrBusy.trans (h : Quiet c d) (h' : EndsOrBusy d res) : EndsOrBusy c res :=
  ⟨h.trans h'.quiet, h'.busy⟩

lemma Leads.endsOrBusy (h : Leads c res) : EndsOrBusy c res := by
  refine ⟨h.moves.quiet, ?_⟩
  by_cases hret : res.1 = 0
  · exact Or.inl hret
  · exact Or.inr (h.busy hret)

lemma Moves.endsOrBusy (h : Moves c res.2) (hc : Busy c) : EndsOrBusy c res :=
  ⟨h.quiet, Or.inr (h.busy hc)⟩

lemma die_quiet (c : Conn) : Quiet c c.die := Quiet.of_outputs (die_outputs c)

lemma setTape_die_quiet (t : List WriteResult) (c : Conn) : Quiet c (c.setTape t).die := by
  have hset : Quiet c (c.setTape t) := Quiet.of_eq rfl rfl
  exact hset.trans (die_quiet _)

lemma wrote_moves (t : List WriteResult) (bs : Bytes) (c : Conn) :
    Moves c ((c.setTape t).wrote bs) :=
  (Moves.of_same rfl rfl (Quiet.of_emit rfl rfl rfl) : Moves c ((c.setTape t).emit _)).trans
    (sent_moves _ _)

lemma readBody_busy (cfg : Config) (env : Env) (hc : Busy c) :
    EndsOrBusy c (readBody cfg env c) := by
  have hwrite : ReqStatus.bodyRead.code ≤ ReqStatus.bodyWrite.code := by decide
  have hfail : Quiet c ((boaPerror cfg env c).setResponse 400) :=
    (Quiet.of_outputs (sendRError_outputs cfg env c)).trans (Quiet.of_eq rfl rfl)
  unfold readBody
  extract_lets bytesFree bytesToRead
  split_ifs
  · exact EndsOrBusy.goes (Quiet.of_eq rfl rfl) hwrite
  cases env.sockRead with
  | again => exact EndsOrBusy.goes (Quiet.refl c) hc
  | intr => exact EndsOrBusy.ended hfail
  | error => exact EndsOrBusy.ended hfail
  | data bs =>
      dsimp only
      split_ifs
      · exact EndsOrBusy.ended (Quiet.of_outputs (sendRBadRequest_outputs cfg env c))
      · exact EndsOrBusy.goes (Quiet.of_eq rfl rfl) hwrite

lemma writeBody_busy (cfg : Config) (env : Env) (hc : Busy c) :
    EndsOrBusy c (writeBody cfg env c) := by
  rcases writeBody_cases cfg env c with ⟨-, ⟨-, heq⟩ | ⟨-, heq⟩⟩
    | ⟨-, ⟨-, heq⟩ | ⟨-, heq⟩ | ⟨-, heq⟩ | ⟨n, -, heq⟩⟩
  · rw [heq]
    have hrewind : Quiet c c.rewind := Quiet.of_eq rfl rfl
    exact EndsOrBusy.trans hrewind (initCgi_leads cfg env _).endsOrBusy
  · rw [heq]
    exact EndsOrBusy.goes (Quiet.of_eq rfl rfl) (le_refl ReqStatus.bodyRead.code)
  · rw [heq]
    exact EndsOrBusy.goes (Quiet.refl c) hc
  · rw [heq]
    exact EndsOrBusy.goes (Quiet.refl c) hc
  · rw [heq]
    exact EndsOrBusy.ended (Quiet.of_outputs (sendRError_outputs cfg env c))
  · rw [heq]
    exact EndsOrBusy.goes (Quiet.of_eq rfl rfl) hc

lemma processGet_busy (cfg : Config) (env : Env) (hc : Busy c) :
    EndsOrBusy c (processGet cfg env c) := by
  rcases processGet_cases cfg env c with heq | ⟨t, heq⟩ | ⟨t, -, heq⟩ | ⟨t, bs, -, heq | heq⟩
  · rw [heq]
    exact (completeResponse_moves cfg c).endsOrBusy hc
  · rw [heq]
    exact EndsOrBusy.ended (setTape_die_quiet t c)
  · rw [heq]
    exact EndsOrBusy.goes (Quiet.of_eq rfl rfl) hc
  · rw [heq]
    exact ((wrote_moves t bs c).trans (completeResponse_moves cfg _)).endsOrBusy hc
  · rw [heq]
    exact EndsOrBusy.goes (wrote_moves t bs c).quiet ((wrote_moves t bs c).busy hc)

lemma ioShuffleSendfile_busy (cfg : Config) (hc : Busy c) :
    EndsOrBusy c (ioShuffleSendfile cfg c) := by
  rcases ioShuffleSendfile_cases cfg c with heq | heq | ⟨t, heq⟩ | ⟨t, -, heq⟩
    | ⟨t, bs, -, heq | heq⟩
  · rw [heq]
    exact (completeResponse_moves cfg c).endsOrBusy hc
  · rw [heq]
    exact EndsOrBusy.goes (Quiet.refl c) hc
  · rw [heq]
    exact EndsOrBusy.ended (setTape_die_quiet t c)
  · rw [heq]
    exact EndsOrBusy.goes (Quiet.of_eq rfl rfl) hc
  · rw [heq]
    exact ((wrote_moves t bs c).trans (completeResponse_moves cfg _)).endsOrBusy hc
  · rw [heq]
    exact EndsOrBusy.goes (wrote_moves t bs c).quiet ((wrote_moves t bs c).busy hc)

lemma ioShuffleWrite_busy (hc : Busy c) : EndsOrBusy c (ioShuffleWrite c) := by
  have hdrained (t : List WriteResult) (n : ℕ) : Quiet c ((c.setTape t).drained n) :=
    Quiet.of_emit rfl rfl rfl
  rcases ioShuffleWrite_cases c with ⟨-, ⟨-, heq⟩ | heq⟩ | ⟨t, -, -, heq⟩ | ⟨t, heq⟩
    | ⟨t, n, -, ⟨-, heq⟩ | heq⟩
  · rw [heq]
    exact EndsOrBusy.ended (Quiet.refl c)
  · rw [heq]
    exact EndsOrBusy.goes (Quiet.of_eq rfl rfl) hc
  · rw [heq]
    exact EndsOrBusy.goes (Quiet.of_eq rfl rfl) hc
  · rw [heq]
    exact EndsOrBusy.ended (setTape_die_quiet t c)
  · rw [heq]
    exact EndsOrBusy.goes ((hdrained t n).trans (Quiet.of_eq rfl rfl)) hc
  · rw [heq]
    exact EndsOrBusy.goes (hdrained t n) hc

lemma ioShuffle_busy (cfg : Config) (env : Env) (hc : Busy c) :
    EndsOrBusy c (ioShuffle cfg env c) := by
  have hshuffled (bs : Bytes) : Moves c (c.shuffled bs) :=
    (Moves.of_same rfl rfl (Quiet.of_emit rfl rfl rfl) : Moves c (c.append bs)).trans
      (advance_moves _ _)
  have hclosed : Moves c c.closeData := Moves.of_same rfl rfl (Quiet.of_emit rfl rfl rfl)
  rcases ioShuffle_cases cfg env c with heq | heq | ⟨-, -, -, heq⟩ | heq | ⟨-, -, heq⟩
    | ⟨bs, -, -, -, heq | heq⟩
  · rw [heq]
    exact (completeResponse_moves cfg c).endsOrBusy hc
  · rw [heq]
    exact EndsOrBusy.ended (die_quiet c)
  · rw [heq]
    exact EndsOrBusy.goes (Quiet.refl c) hc
  · rw [heq]
    exact ioShuffleWrite_busy hc
  · rw [heq]
    exact EndsOrBusy.trans hclosed.quiet (ioShuffleWrite_busy (hclosed.busy hc))
  · rw [heq]
    exact ((hshuffled bs).trans (completeResponse_moves cfg _)).endsOrBusy hc
  · rw [heq]
    exact EndsOrBusy.trans (hshuffled bs).quiet (ioShuffleWrite_busy ((hshuffled bs).busy hc))

lemma writeFromPipe_busy (hc : Busy c) : EndsOrBusy c (writeFromPipe c) := by
  have hread : ReqStatus.bodyRead.code ≤ ReqStatus.pipeRead.code := by decide
  have hpiped (t : List WriteResult) (n : ℕ) : Quiet c ((c.setTape t).pipedOut n) :=
    Quiet.of_emit rfl rfl rfl
  rcases writeFromPipe_cases c with ⟨-, ⟨-, heq⟩ | ⟨-, heq⟩⟩ | ⟨t, -, heq⟩ | ⟨t, heq⟩ | ⟨t, heq⟩
    | ⟨t, n, -, ⟨-, heq⟩ | ⟨-, heq⟩⟩
  · rw [heq]
    exact EndsOrBusy.ended (Quiet.refl c)
  · rw [heq]
    exact EndsOrBusy.goes (Quiet.of_eq rfl rfl) hread
  · rw [heq]
    exact EndsOrBusy.goes (Quiet.of_eq rfl rfl) hc
  · rw [heq]
    exact EndsOrBusy.goes (Quiet.of_eq rfl rfl) hc
  · rw [heq]
    exact EndsOrBusy.ended (setTape_die_quiet t c)
  · rw [heq]
    exact EndsOrBusy.goes ((hpiped t n).trans (Quiet.of_eq rfl rfl)) hread
  · rw [heq]
    exact EndsOrBusy.goes (hpiped t n) hc

lemma cgiLocation_moves (cfg : Config) (env : Env) (buf : ℕ) (c : Conn) :
    Moves c (cgiLocation cfg env buf c) := by
  have hcut : Moves c (c.endLocation buf) := by
    obtain ⟨m, hm⟩ := c.endLocation_eq buf
    rw [hm]
    exact Moves.of_upd rfl rfl rfl rfl
  rcases cgiLocation_cases cfg env buf c with heq | ⟨url, moreHdr, heq⟩
  · rw [heq]
    exact Moves.of_outputs (sendRBadRequest_outputs cfg env c)
  · rw [heq]
    exact hcut.trans (Moves.of_outputs (sendRMovedTemp_outputs cfg env url moreHdr _))

lemma cgiMerge_moves (cfg : Config) (env : Env) (blank : ℕ) (c : Conn) :
    Moves c (cgiMerge cfg env blank c).2 := by
  have hok := Moves.of_outputs (sendRRequestOk_outputs cfg env c)
  unfold cgiMerge
  extract_lets d e howmuch e₁ e₂
  have hd : Moves c d := hok
  have he : Moves c e := by
    refine hd.trans ?_
    show Moves d (if d.req.method = .head then _ else d)
    split_ifs <;> exact Moves.of_upd rfl rfl rfl rfl
  clear_value e
  refine he.trans (Moves.ite ?_ ?_)
  · have hdrop : Moves e ((e.upd fun r => { r with bufferStart := 0, bufferEnd := 0 }).emit
        .dropped) := Moves.of_same rfl rfl (Quiet.of_emit rfl rfl rfl)
    exact hdrop.trans (Moves.of_outputs (sendRError_outputs cfg env _))
  · exact (Moves.of_same rfl rfl (Quiet.of_emit rfl rfl rfl) : Moves e e₁).trans
      (Moves.of_outputs (reqFlush_outputs e₁))

lemma processCgiHeader_busy (cfg : Config) (env : Env) (hc : Busy c) :
    EndsOrBusy c (processCgiHeader cfg env c) := by
  have hbegun : Moves c c.cgiBegun := Moves.of_upd rfl rfl rfl rfl
  have hdone : ReqStatus.bodyRead.code ≤ ReqStatus.done.code := by decide
  rcases processCgiHeader_cases cfg env c with heq | ⟨k, -, ⟨-, heq⟩ | heq | ⟨-, heq⟩ | heq⟩
  · rw [heq]
    exact EndsOrBusy.ended
      (hbegun.trans (Moves.of_outputs (sendRBadGateway_outputs cfg env _))).quiet
  · rw [heq]
    exact EndsOrBusy.goes (Quiet.of_eq rfl rfl) hc
  · rw [heq]
    exact EndsOrBusy.goes (Quiet.of_eq rfl rfl) hc
  · rw [heq]
    have hmoves := hbegun.trans (cgiLocation_moves cfg env c.req.headerLine.off c.cgiBegun)
    exact EndsOrBusy.goes (hmoves.quiet.trans (Quiet.of_eq rfl rfl)) hdone
  · rw [heq]
    exact (hbegun.trans (cgiMerge_moves cfg env _ _)).endsOrBusy hc

lemma readFromPipe_busy (cfg : Config) (env : Env) (hc : Busy c) :
    EndsOrBusy c (readFromPipe cfg env c) := by
  have hwrite : ReqStatus.bodyRead.code ≤ ReqStatus.pipeWrite.code := by decide
  have hheader {d : Conn} (hd : Busy d) (hquiet : Quiet c d) :
      EndsOrBusy c (processCgiHeader cfg env d) :=
    EndsOrBusy.trans hquiet (processCgiHeader_busy cfg env hd)
  rcases readFromPipe_cases cfg env c with ⟨-, ⟨-, heq⟩ | ⟨-, heq⟩⟩
    | ⟨-, ⟨-, heq⟩ | ⟨-, heq⟩ | ⟨-, heq⟩ | ⟨-, ⟨-, heq⟩ | ⟨-, heq⟩⟩
      | ⟨b, bs, -, ⟨-, heq⟩ | ⟨-, heq⟩ | ⟨-, heq⟩⟩⟩
  · rw [heq]
    have hbusy : Busy (c.toCgiHeader .buffer) := hc
    exact hheader hbusy (Quiet.of_eq rfl rfl)
  · rw [heq]
    exact EndsOrBusy.goes (Quiet.of_eq rfl rfl) hwrite
  · rw [heq]
    exact EndsOrBusy.goes (Quiet.refl c) hc
  · rw [heq]
    exact EndsOrBusy.goes (Quiet.refl c) hc
  · rw [heq]
    exact EndsOrBusy.ended (die_quiet c)
  · rw [heq]
    have hbusy : Busy c.pipeEof := hwrite
    exact hheader hbusy (Quiet.of_eq rfl rfl)
  · rw [heq]
    exact EndsOrBusy.goes (Quiet.of_eq rfl rfl) hwrite
  · rw [heq]
    have hbusy (bs : Bytes) : Busy (c.pipedIn bs) := hc
    have hpiped (bs : Bytes) : Quiet c (c.pipedIn bs) := Quiet.of_eq rfl rfl
    exact EndsOrBusy.trans (hpiped _) (writeFromPipe_busy (hbusy _))
  · rw [heq]
    exact EndsOrBusy.goes (Quiet.of_eq rfl rfl) hc
  · rw [heq]
    have hbusy (bs : Bytes) : Busy ((c.pipedIn bs).toCgiHeader .done) := hc
    exact hheader (hbusy _) (Quiet.of_eq rfl rfl)

lemma processDone_busy (hc : Busy c) : EndsOrBusy c (processDone c) := by
  have hflush := Moves.of_outputs (reqFlush_outputs c)
  rw [processDone]
  generalize reqFlush c = res at hflush ⊢
  obtain ⟨retval, d⟩ := res
  dsimp only at hflush ⊢
  split_ifs
  · exact EndsOrBusy.ended (hflush.quiet.trans (Quiet.of_eq rfl rfl))
  · exact EndsOrBusy.goes hflush.quiet (hflush.busy hc)
  · exact EndsOrBusy.goes hflush.quiet (hflush.busy hc)

/-- **The handlers end a busy request, or leave it busy.** -/
lemma handleStatus_busy (cfg : Config) (env : Env) (hc : Busy c) :
    EndsOrBusy c (handleStatus cfg env c) := by
  rw [handleStatus]
  have hnot {s : ReqStatus} (hs : c.req.status = s) (hlt : ¬ReqStatus.bodyRead.code ≤ s.code) :
      False := hlt (hs ▸ hc)
  cases hstatus : c.req.status with
  | readHeader => exact absurd (by decide) (hnot hstatus)
  | oneCr => exact absurd (by decide) (hnot hstatus)
  | oneLf => exact absurd (by decide) (hnot hstatus)
  | twoCr => exact absurd (by decide) (hnot hstatus)
  | bodyRead => exact readBody_busy cfg env hc
  | bodyWrite => exact writeBody_busy cfg env hc
  | write => exact processGet_busy cfg env hc
  | pipeRead => exact readFromPipe_busy cfg env hc
  | pipeWrite => exact writeFromPipe_busy hc
  | ioShuffle =>
      dsimp only
      split_ifs
      · exact ioShuffleSendfile_busy cfg hc
      · exact ioShuffle_busy cfg env hc
  | done => exact processDone_busy hc
  | timedOut => exact EndsOrBusy.ended (Quiet.of_emit rfl rfl rfl)
  | dead => exact EndsOrBusy.ended (Quiet.of_emit rfl rfl rfl)

end

/-! ### The end of the header -/

lemma sendPages_outputs (cfg : Config) (env : Env) (page : Option Page) (c : Conn) :
    Outputs c (sendPages cfg env page c) := by
  cases page with
  | none => exact Outputs.refl c
  | some page =>
      cases page with
      | badRequest => exact sendRBadRequest_outputs cfg env c
      | forbidden => exact sendRForbidden_outputs cfg env c
      | notFound => exact sendRNotFound_outputs cfg env c
      | movedTemp url => exact sendRMovedTemp_outputs cfg env (.elsewhere url) (fun _ => []) c

end Yabwf
