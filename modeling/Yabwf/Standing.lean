import Yabwf.HeaderText

/-!
Where a request stands in what it has received.

* `addCgiEnv_stands` to `initGet_stands`: the functions that start a response leave `parse_pos` and
  `client_stream_pos` alone.
* `handleStatus_stands`: so do the handlers behind the header.
* `processHeaderEnd_stands`, `processLogline_stands`, `processOptionLine_stands`: and so do the
  functions that `read_header` calls.
-/

namespace Yabwf

open Memory

variable {pos room : ℕ} {c d : Conn}

namespace Stands

lemma refl (c : Conn) : Stands c.req.parsePos c.req.clientStreamPos c := ⟨rfl, rfl⟩

lemma congr (h : Stands pos room c) (hpos : d.req.parsePos = c.req.parsePos)
    (hroom : d.req.clientStreamPos = c.req.clientStreamPos) : Stands pos room d :=
  ⟨hpos.trans h.1, hroom.trans h.2⟩

lemma outputs (h : Stands pos room c) (hout : Outputs c d) : Stands pos room d := by
  obtain ⟨_, _, _, _, _, _, _, hreq⟩ := hout.req
  exact h.congr (by rw [hreq]) (by rw [hreq])

lemma ite {α : Type} {p : Prop} [Decidable p] {a b : α × Conn} (h : Stands pos room a.2)
    (h' : Stands pos room b.2) : Stands pos room (if p then a else b).2 := by
  split_ifs
  · exact h
  · exact h'

end Stands

/-! ### Scripts -/

lemma addCgiEnv_stands (r : Request) (key value : Bytes) (http : Bool) :
    (addCgiEnv r key value http).2.parsePos = r.parsePos ∧
      (addCgiEnv r key value http).2.clientStreamPos = r.clientStreamPos := by
  rw [addCgiEnv]
  split_ifs <;> exact ⟨rfl, rfl⟩

lemma addCgiEnvs_stands (vars : List (Bytes × Bytes)) (r : Request) :
    (addCgiEnvs vars r).2.parsePos = r.parsePos ∧
      (addCgiEnvs vars r).2.clientStreamPos = r.clientStreamPos := by
  induction vars generalizing r with
  | nil => exact ⟨rfl, rfl⟩
  | cons v vars ih =>
      obtain ⟨key, value⟩ := v
      have hadd := addCgiEnv_stands r key value false
      rw [addCgiEnvs]
      generalize addCgiEnv r key value false = res at hadd ⊢
      obtain ⟨ok, r'⟩ := res
      cases ok with
      | true => exact ⟨(ih r').1.trans hadd.1, (ih r').2.trans hadd.2⟩
      | false => exact hadd

lemma completeEnv_stands (cfg : Config) (r : Request) :
    (completeEnv cfg r).2.parsePos = r.parsePos ∧
      (completeEnv cfg r).2.clientStreamPos = r.clientStreamPos := by
  have hadd := addCgiEnvs_stands (completeEnvVars cfg { r with
    cgiEnv := fun i => if i < cfg.commonCgiEnv.length then cfg.commonCgiEnv[i]? else r.cgiEnv i })
    { r with
      cgiEnv := fun i => if i < cfg.commonCgiEnv.length then cfg.commonCgiEnv[i]? else r.cgiEnv i }
  rw [completeEnv]
  generalize addCgiEnvs _ _ = res at hadd ⊢
  obtain ⟨ok, r'⟩ := res
  cases ok with
  | true =>
      dsimp only
      split_ifs <;> exact hadd
  | false => exact hadd

lemma closePipe_stands (pipes : Option (ℕ × ℕ)) (h : Stands pos room c) :
    Stands pos room (closePipe pipes c) := by
  cases pipes with
  | none => exact h
  | some ends => exact h

lemma initCgiParent_stands (pipes : Option (ℕ × ℕ)) (h : Stands pos room c) :
    Stands pos room (initCgiParent pipes c).2 := by
  have hclosed : Stands pos room (if c.req.method = .post then
      (c.emit (.closed c.req.postDataFd)).upd fun r => { r with postDataFd := 0 } else c) := by
    split_ifs <;> exact h
  simp only [initCgiParent]
  generalize (if c.req.method = .post then _ else c : Conn) = d at hclosed ⊢
  cases pipes with
  | none => exact hclosed
  | some ends => exact hclosed

lemma initCgiFork_stands (cfg : Config) (env : Env) (pipes : Option (ℕ × ℕ))
    (h : Stands pos room c) : Stands pos room (initCgiFork cfg env pipes c).2 := by
  refine Stands.ite ?_ ?_
  · have hchild : Stands pos room { c with trace := c.trace ++ childEvent cfg c.req } := h
    exact initCgiParent_stands pipes hchild
  · exact closePipe_stands pipes (h.outputs (sendRError_outputs cfg env c))

lemma initCgiPipes_stands (cfg : Config) (env : Env) (h : Stands pos room c) :
    Stands pos room (initCgiPipes cfg env c).2 := by
  refine Stands.ite ?_ (initCgiFork_stands cfg env none h)
  cases env.pipe with
  | none => exact h
  | some ends =>
      have hopened : Stands pos room ((c.emit (.opened ends.1)).emit (.opened ends.2)) := h
      exact Stands.ite (initCgiFork_stands cfg env _ hopened) (closePipe_stands _ hopened)

lemma initCgi_stands (cfg : Config) (env : Env) (h : Stands pos room c) :
    Stands pos room (initCgi cfg env c).2 := by
  have hsquash : Stands pos room c.squashKa := h
  refine Stands.ite (initCgiPipes_stands cfg env hsquash) ?_
  have hsame := completeEnv_stands cfg c.squashKa.req
  generalize completeEnv cfg c.squashKa.req = res at hsame ⊢
  obtain ⟨ok, r⟩ := res
  have hr : Stands pos room { c.squashKa with req := r } := hsquash.congr hsame.1 hsame.2
  cases ok with
  | true => exact initCgiPipes_stands cfg env hr
  | false => exact hr

/-! ### Documents -/

lemma advance_stands (n : ℕ) (h : Stands pos room c) :
    Stands pos room (c.upd fun r => r.advance n) := by
  have hadvance : (c.req.advance n).parsePos = c.req.parsePos ∧
      (c.req.advance n).clientStreamPos = c.req.clientStreamPos := by
    rw [Request.advance]
    cases c.req.ranges <;> exact ⟨rfl, rfl⟩
  exact h.congr hadvance.1 hadvance.2

lemma sent_stands (n : ℕ) (h : Stands pos room c) : Stands pos room (c.sent n) :=
  advance_stands n h

lemma gunzipResponse_stands (cfg : Config) (env : Env) (path : Bytes) {fields : Conn → Conn}
    (hfields : ∀ c, Outputs c (fields c)) (h : Stands pos room c) :
    Stands pos room (gunzipResponse cfg env path fields c).2 := by
  have hset : Stands pos room
      (c.upd fun r => { r with responseStatus := 200, pathname := some path }) := h
  rw [gunzipResponse]
  generalize (c.upd fun r => { r with responseStatus := 200, pathname := some path }) = d
    at hset ⊢
  have hhead : Stands pos room (if d.req.httpVersion = .http09 then d
      else (reqFlush (d |> statusLine cfg env " 200 OK-GUNZIP\r\n" |> fields)).2) := by
    split_ifs
    · exact hset
    · exact ((hset.outputs (statusLine_outputs cfg env _ d)).outputs (hfields _)).outputs
        (reqFlush_outputs _)
  exact Stands.ite hhead (initCgi_stands cfg env hhead)

lemma indexDirectory_stands (cfg : Config) (env : Env) (h : Stands pos room c) :
    Stands pos room (indexDirectory cfg env c).2 := by
  rw [indexDirectory]
  cases env.chdir with
  | denied => exact h.outputs (sendRForbidden_outputs cfg env c)
  | other => exact h.outputs (sendRBadRequest_outputs cfg env c)
  | ok =>
      exact Stands.ite (h.outputs (sendRError_outputs cfg env c))
        (Stands.ite (h.outputs (sendRError_outputs cfg env c)) h)

lemma getCachedirFile_stands (cfg : Config) (env : Env) (cachedir : Bytes) (st : Stat)
    (h : Stands pos room c) : Stands pos room (getCachedirFile cfg env cachedir st c).2 :=
  getCachedirFile_invariant (P := Stands pos room) (Q := fun res => Stands pos room res.2)
    (fun _ hd => hd) (fun _ hd => hd) (fun hd => indexDirectory_stands cfg env hd)
    (fun _ _ _ _ hd => hd) (fun hd => hd) (fun hd => hd.outputs (sendRError_outputs cfg env _))
    cachedir st h

lemma getDirListing_stands (cfg : Config) (env : Env) (st : Stat) (h : Stands pos room c) :
    Stands pos room (getDirListing cfg env st c).2 := by
  rw [getDirListing]
  cases cfg.dirmaker with
  | some maker =>
      have hset : Stands pos room (c.setResponse 200).squashKa := h
      dsimp only
      generalize (c.setResponse 200).squashKa = d at hset ⊢
      have hhead : Stands pos room (if d.req.httpVersion = .http09 then d
          else (reqFlush (d |> statusLine cfg env " 200 OK\r\n" |> printLastModified env
            |> reqWrite (str "Content-Type: text/html\r\n\r\n"))).2) := by
        split_ifs
        · exact hset
        · exact hset.outputs ((((statusLine_outputs cfg env _ d).trans
            (printLastModified_outputs env _)).trans (reqWrite_outputs _ _)).trans
              (reqFlush_outputs _))
      exact Stands.ite hhead (initCgi_stands cfg env hhead)
  | none =>
      cases cfg.cachedir with
      | some cachedir => exact getCachedirFile_stands cfg env cachedir st h
      | none => exact h.outputs (sendRForbidden_outputs cfg env c)

lemma getDir_stands (cfg : Config) (env : Env) (st : Stat) (h : Stands pos room c) :
    Stands pos room (getDir cfg env st c).2 := by
  unfold getDir
  cases cfg.directoryIndex with
  | none => exact getDirListing_stands cfg env st h
  | some index =>
      refine Stands.ite (h.outputs (sendRError_outputs cfg env c)) ?_
      cases env.openFile (c.req.pathname.getD [] ++ index) with
      | ok fd st' contents => exact h
      | eacces => exact h.outputs (sendRForbidden_outputs cfg env c)
      | other => exact h.outputs (sendRNotFound_outputs cfg env c)
      | enoent =>
          refine Stands.ite (getDirListing_stands cfg env st h) ?_
          cases env.openFile (c.req.pathname.getD [] ++ index ++ str ".gz") with
          | ok fd st' contents =>
              have hopen : Stands pos room
                  ((c.emit (.opened fd)).emit (.closed fd)).squashKa := h
              refine gunzipResponse_stands cfg env _ (fun d => ?_) hopen
              exact (((printLastModified_outputs env d).trans (reqWrite_outputs _ _)).trans
                (reqWrite_outputs _ _)).trans (reqWrite_outputs _ _)
          | enoent => exact getDirListing_stands cfg env st h
          | eacces => exact getDirListing_stands cfg env st h
          | other => exact getDirListing_stands cfg env st h

lemma completeResponse_stands (cfg : Config) (h : Stands pos room c) :
    Stands pos room (completeResponse cfg c).2 :=
  h.outputs (completeResponse_outputs cfg c)

lemma fillBuffer_stands (cfg : Config) (env : Env) (h : Stands pos room c) :
    Stands pos room (fillBuffer cfg env c).2 := by
  have hsent (bs : Bytes) : Stands pos room ((c.append bs).sent bs.length) := by
    have happend : Stands pos room (c.append bs) := h
    exact sent_stands _ happend
  rcases fillBuffer_cases cfg env c with heq | heq | ⟨bs, -, -, heq | heq⟩
  · rw [heq]
    exact h
  · rw [heq]
    have hreset : Stands pos room (resetOutputBuffer c) := h
    exact hreset.outputs (sendRError_outputs cfg env _)
  · rw [heq]
    exact completeResponse_stands cfg (hsent bs)
  · rw [heq]
    exact hsent bs

lemma sendFileHeader_stands (cfg : Config) (env : Env) (path : Bytes) (h : Stands pos room c) :
    Stands pos room (sendFileHeader cfg env path c).2 := by
  have hsend {d : Conn} (hd : Stands pos room d) : Stands pos room
      (if d.req.method = .head then completeResponse cfg d
        else fillBuffer cfg env (d.emit (.served path))).2 := by
    have hserved : Stands pos room (d.emit (.served path)) := hd
    exact Stands.ite (completeResponse_stands cfg hd) (fillBuffer_stands cfg env hserved)
  refine Stands.ite ?_ (hsend (h.outputs (sendRPartialContent_outputs cfg env c)))
  have hset : Stands pos room (c.upd fun r => { r with ranges := [⟨0, ulongMax⟩] }) := h
  have hfix := hset.outputs (rangesFixup_outputs cfg env
    (c.upd fun r => { r with ranges := [⟨0, ulongMax⟩] }))
  generalize rangesFixup cfg env (c.upd fun r => { r with ranges := [⟨0, ulongMax⟩] }) = res
    at hfix ⊢
  obtain ⟨ret, d⟩ := res
  cases ret with
  | true => exact hsend (hfix.outputs (sendRRequestOk_outputs cfg env d))
  | false => exact hfix

lemma attachFile_stands (env : Env) (fd : ℕ) (contents : Mem) (h : Stands pos room c) :
    Stands pos room (attachFile env fd contents c) := by
  rw [attachFile]
  split_ifs <;> exact h

lemma serveFile_stands (cfg : Config) (env : Env) (fd : ℕ) (st : Stat) (contents : Mem)
    (path : Bytes) (h : Stands pos room c) :
    Stands pos room (serveFile cfg env fd st contents path c).2 := by
  have hclosed {d e : Conn} (hd : Stands pos room d) (hout : Outputs d e) :
      Stands pos room (e.emit (.closed fd)) := by
    have he := hd.outputs hout
    exact he
  have hset : Stands pos room
      (c.upd fun r => { r with filesize := st.size, lastModified := st.mtime }) := h
  refine Stands.ite (hclosed h (sendRBadRequest_outputs cfg env c))
    (Stands.ite (hclosed h (sendRNotModified_outputs cfg env c)) ?_)
  dsimp only
  generalize (c.upd fun r => { r with filesize := st.size, lastModified := st.mtime }) = d
    at hset ⊢
  refine Stands.ite (Stands.ite (hclosed hset (sendRNoContent_outputs cfg env d))
    (hclosed hset (sendRRequestOk_outputs cfg env d))) ?_
  have hfix : Stands pos room
      (if d.req.ranges = [] then (true, d) else rangesFixup cfg env d).2 :=
    Stands.ite hset (hset.outputs (rangesFixup_outputs cfg env d))
  generalize (if d.req.ranges = [] then (true, d) else rangesFixup cfg env d) = res at hfix ⊢
  obtain ⟨ret, e⟩ := res
  cases ret with
  | true => exact sendFileHeader_stands cfg env path (attachFile_stands env fd contents hfix)
  | false => exact hfix

lemma initGetOpened_stands (cfg : Config) (env : Env) (fd : ℕ) (st : Stat) (contents : Mem)
    (h : Stands pos room c) : Stands pos room (initGetOpened cfg env fd st contents c).2 := by
  have hclose : Stands pos room (c.emit (.closed fd)) := h
  refine Stands.ite (h.outputs (sendRForbidden_outputs cfg env c))
    (Stands.ite (serveFile_stands cfg env fd st contents _ h) ?_)
  generalize c.emit (.closed fd) = d at hclose ⊢
  refine Stands.ite ?_ ?_
  · cases directoryUrl cfg d.req with
    | none => exact hclose.outputs (sendRError_outputs cfg env d)
    | some url => exact hclose.outputs (sendRMovedPerm_outputs cfg env url d)
  · have hdir := getDir_stands cfg env st hclose
    generalize getDir cfg env st d = dir at hdir ⊢
    obtain ⟨res, e⟩ := dir
    cases res with
    | ret value => exact hdir
    | file fd' st' contents' path =>
        exact Stands.ite hdir (serveFile_stands cfg env fd' st' contents' path hdir)

lemma openFailed_stands (cfg : Config) (env : Env) (res : OpenResult) (h : Stands pos room c) :
    Stands pos room (openFailed cfg env res c).2 := by
  cases res with
  | enoent => exact h.outputs (sendRNotFound_outputs cfg env c)
  | eacces => exact h.outputs (sendRForbidden_outputs cfg env c)
  | other => exact h.outputs (sendRBadRequest_outputs cfg env c)
  | ok fd st contents => exact h.outputs (sendRBadRequest_outputs cfg env c)

lemma initGet_stands (cfg : Config) (env : Env) (h : Stands pos room c) :
    Stands pos room (initGet cfg env c).2 := by
  unfold initGet
  extract_lets path
  cases env.openFile path with
  | ok fd st contents =>
      have hopen : Stands pos room (c.emit (.opened fd)) := h
      exact initGetOpened_stands cfg env fd st contents hopen
  | enoent =>
      refine Stands.ite (openFailed_stands cfg env _ h)
        (Stands.ite (h.outputs (sendRBadRequest_outputs cfg env c)) ?_)
      cases env.openFile (path ++ str ".gz") with
      | ok fd st contents =>
          have hopen : Stands pos room ((c.emit (.opened fd)).emit (.closed fd)) := h
          refine gunzipResponse_stands cfg env _ (fun d => ?_) hopen
          exact ((printContentType_outputs cfg d).trans (printLastModified_outputs env _)).trans
            (reqWrite_outputs _ _)
      | enoent => exact openFailed_stands cfg env _ h
      | eacces => exact openFailed_stands cfg env _ h
      | other => exact openFailed_stands cfg env _ h
  | eacces => exact openFailed_stands cfg env _ h
  | other => exact openFailed_stands cfg env _ h

/-! ### Handlers -/

lemma readBody_stands (cfg : Config) (env : Env) (h : Stands pos room c) :
    Stands pos room (readBody cfg env c).2 := by
  have hstore (p : Ptr) (bs : Bytes) : (c.req.storeAt p bs).parsePos = c.req.parsePos ∧
      (c.req.storeAt p bs).clientStreamPos = c.req.clientStreamPos := by
    rw [Request.storeAt]
    cases p.region <;> exact ⟨rfl, rfl⟩
  have hperror := h.outputs (sendRError_outputs cfg env c)
  unfold readBody
  extract_lets bytesFree bytesToRead
  refine Stands.ite h ?_
  cases env.sockRead with
  | again => exact h
  | intr => exact hperror
  | error => exact hperror
  | data bs =>
      refine Stands.ite (h.outputs (sendRBadRequest_outputs cfg env c)) ?_
      exact h.congr (hstore _ _).1 (hstore _ _).2

lemma writeBody_stands (cfg : Config) (env : Env) (h : Stands pos room c) :
    Stands pos room (writeBody cfg env c).2 := by
  have hrewind : Stands pos room c.rewind := h
  rcases writeBody_cases cfg env c with ⟨-, ⟨-, heq⟩ | ⟨-, heq⟩⟩
    | ⟨-, ⟨-, heq⟩ | ⟨-, heq⟩ | ⟨-, heq⟩ | ⟨n, -, heq⟩⟩
  · rw [heq]
    exact initCgi_stands cfg env hrewind
  · rw [heq]
    exact h
  · rw [heq]
    exact h
  · rw [heq]
    exact h
  · rw [heq]
    exact h.outputs (sendRError_outputs cfg env c)
  · rw [heq]
    exact h

lemma setTape_die_stands (t : List WriteResult) (h : Stands pos room c) :
    Stands pos room (c.setTape t).die := by
  have hset : Stands pos room (c.setTape t) := h
  exact hset.outputs (die_outputs _)

lemma wrote_stands (t : List WriteResult) (bs : Bytes) (h : Stands pos room c) :
    Stands pos room ((c.setTape t).wrote bs) := by
  have hset : Stands pos room (c.setTape t) := h
  exact sent_stands bs.length hset

lemma processGet_stands (cfg : Config) (env : Env) (h : Stands pos room c) :
    Stands pos room (processGet cfg env c).2 := by
  rcases processGet_cases cfg env c with heq | ⟨t, heq⟩ | ⟨t, -, heq⟩ | ⟨t, bs, -, heq | heq⟩
  · rw [heq]
    exact completeResponse_stands cfg h
  · rw [heq]
    exact setTape_die_stands t h
  · rw [heq]
    exact h
  · rw [heq]
    exact completeResponse_stands cfg (wrote_stands t bs h)
  · rw [heq]
    exact wrote_stands t bs h

lemma ioShuffleSendfile_stands (cfg : Config) (h : Stands pos room c) :
    Stands pos room (ioShuffleSendfile cfg c).2 := by
  rcases ioShuffleSendfile_cases cfg c with heq | heq | ⟨t, heq⟩ | ⟨t, -, heq⟩
    | ⟨t, bs, -, heq | heq⟩
  · rw [heq]
    exact completeResponse_stands cfg h
  · rw [heq]
    exact h
  · rw [heq]
    exact setTape_die_stands t h
  · rw [heq]
    exact h
  · rw [heq]
    exact completeResponse_stands cfg (wrote_stands t bs h)
  · rw [heq]
    exact wrote_stands t bs h

lemma ioShuffleWrite_stands (h : Stands pos room c) : Stands pos room (ioShuffleWrite c).2 := by
  rcases ioShuffleWrite_cases c with ⟨-, ⟨-, heq⟩ | heq⟩ | ⟨t, -, -, heq⟩ | ⟨t, heq⟩
    | ⟨t, n, -, ⟨-, heq⟩ | heq⟩
  · rw [heq]
    exact h
  · rw [heq]
    exact h
  · rw [heq]
    exact h
  · rw [heq]
    exact setTape_die_stands t h
  · rw [heq]
    exact h
  · rw [heq]
    exact h

lemma ioShuffle_stands (cfg : Config) (env : Env) (h : Stands pos room c) :
    Stands pos room (ioShuffle cfg env c).2 := by
  have hshuffled (bs : Bytes) : Stands pos room (c.shuffled bs) := by
    have happend : Stands pos room (c.append bs) := h
    exact advance_stands _ happend
  have hclosed : Stands pos room c.closeData := h
  rcases ioShuffle_cases cfg env c with heq | heq | ⟨-, -, -, heq⟩ | heq | ⟨-, -, heq⟩
    | ⟨bs, -, -, -, heq | heq⟩
  · rw [heq]
    exact completeResponse_stands cfg h
  · rw [heq]
    exact h.outputs (die_outputs c)
  · rw [heq]
    exact h
  · rw [heq]
    exact ioShuffleWrite_stands h
  · rw [heq]
    exact ioShuffleWrite_stands hclosed
  · rw [heq]
    exact completeResponse_stands cfg (hshuffled bs)
  · rw [heq]
    exact ioShuffleWrite_stands (hshuffled bs)

lemma writeFromPipe_stands (h : Stands pos room c) : Stands pos room (writeFromPipe c).2 := by
  rcases writeFromPipe_cases c with ⟨-, ⟨-, heq⟩ | ⟨-, heq⟩⟩ | ⟨t, -, heq⟩ | ⟨t, heq⟩ | ⟨t, heq⟩
    | ⟨t, n, -, ⟨-, heq⟩ | ⟨-, heq⟩⟩
  · rw [heq]
    exact h
  · rw [heq]
    exact h
  · rw [heq]
    exact h
  · rw [heq]
    exact h
  · rw [heq]
    exact setTape_die_stands t h
  · rw [heq]
    exact h
  · rw [heq]
    exact h

lemma cgiLocation_stands (cfg : Config) (env : Env) (buf : ℕ) (h : Stands pos room c) :
    Stands pos room (cgiLocation cfg env buf c) := by
  have hcut : Stands pos room (c.endLocation buf) := by
    obtain ⟨m, hm⟩ := c.endLocation_eq buf
    rw [hm]
    exact h
  rcases cgiLocation_cases cfg env buf c with heq | ⟨url, moreHdr, heq⟩
  · rw [heq]
    exact h.outputs (sendRBadRequest_outputs cfg env c)
  · rw [heq]
    exact hcut.outputs (sendRMovedTemp_outputs cfg env url moreHdr _)

lemma cgiMerge_stands (cfg : Config) (env : Env) (blank : ℕ) (h : Stands pos room c) :
    Stands pos room (cgiMerge cfg env blank c).2 := by
  have hok := h.outputs (sendRRequestOk_outputs cfg env c)
  unfold cgiMerge
  extract_lets d e howmuch e₁ e₂
  have hd : Stands pos room d := hok
  have he : Stands pos room e := by
    show Stands pos room (if d.req.method = .head then _ else d)
    split_ifs <;> exact hd
  clear_value e
  refine Stands.ite ?_ ?_
  · have hdrop : Stands pos room
        ((e.upd fun r => { r with bufferStart := 0, bufferEnd := 0 }).emit .dropped) := he
    exact hdrop.outputs (sendRError_outputs cfg env _)
  · have hmerged : Stands pos room e₁ := he
    exact hmerged.outputs (reqFlush_outputs e₁)

lemma processCgiHeader_stands (cfg : Config) (env : Env) (h : Stands pos room c) :
    Stands pos room (processCgiHeader cfg env c).2 := by
  have hbegun : Stands pos room c.cgiBegun := h
  rcases processCgiHeader_cases cfg env c with heq | ⟨k, -, ⟨-, heq⟩ | heq | ⟨-, heq⟩ | heq⟩
  · rw [heq]
    exact hbegun.outputs (sendRBadGateway_outputs cfg env _)
  · rw [heq]
    exact h
  · rw [heq]
    exact h
  · rw [heq]
    exact cgiLocation_stands cfg env c.req.headerLine.off hbegun
  · rw [heq]
    exact cgiMerge_stands cfg env _ hbegun

lemma readFromPipe_stands (cfg : Config) (env : Env) (h : Stands pos room c) :
    Stands pos room (readFromPipe cfg env c).2 := by
  have hpiped (bs : Bytes) : Stands pos room (c.pipedIn bs) := h
  rcases readFromPipe_cases cfg env c with ⟨-, ⟨-, heq⟩ | ⟨-, heq⟩⟩
    | ⟨-, ⟨-, heq⟩ | ⟨-, heq⟩ | ⟨-, heq⟩ | ⟨-, ⟨-, heq⟩ | ⟨-, heq⟩⟩
      | ⟨b, bs, -, ⟨-, heq⟩ | ⟨-, heq⟩ | ⟨-, heq⟩⟩⟩
  · rw [heq]
    have hheader : Stands pos room (c.toCgiHeader .buffer) := h
    exact processCgiHeader_stands cfg env hheader
  · rw [heq]
    exact h
  · rw [heq]
    exact h
  · rw [heq]
    exact h
  · rw [heq]
    exact h.outputs (die_outputs c)
  · rw [heq]
    have heof : Stands pos room c.pipeEof := h
    exact processCgiHeader_stands cfg env heof
  · rw [heq]
    exact h
  · rw [heq]
    exact writeFromPipe_stands (hpiped _)
  · rw [heq]
    exact h
  · rw [heq]
    have hheader (bs : Bytes) : Stands pos room ((c.pipedIn bs).toCgiHeader .done) := h
    exact processCgiHeader_stands cfg env (hheader _)

lemma processDone_stands (h : Stands pos room c) : Stands pos room (processDone c).2 := by
  have hflush := h.outputs (reqFlush_outputs c)
  rw [processDone]
  generalize reqFlush c = res at hflush ⊢
  obtain ⟨retval, d⟩ := res
  dsimp only at hflush ⊢
  split_ifs <;> exact hflush

/-- **Behind the header** nothing is parsed and nothing is received in `client_stream`. -/
lemma handleStatus_stands (cfg : Config) (env : Env) (hbusy : Busy c) (h : Stands pos room c) :
    Stands pos room (handleStatus cfg env c).2 := by
  rw [handleStatus]
  have hnot {s : ReqStatus} (hs : c.req.status = s) (hlt : ¬ReqStatus.bodyRead.code ≤ s.code) :
      False := hlt (hs ▸ hbusy)
  cases hstatus : c.req.status with
  | readHeader => exact absurd (by decide) (hnot hstatus)
  | oneCr => exact absurd (by decide) (hnot hstatus)
  | oneLf => exact absurd (by decide) (hnot hstatus)
  | twoCr => exact absurd (by decide) (hnot hstatus)
  | bodyRead => exact readBody_stands cfg env h
  | bodyWrite => exact writeBody_stands cfg env h
  | write => exact processGet_stands cfg env h
  | pipeRead => exact readFromPipe_stands cfg env h
  | pipeWrite => exact writeFromPipe_stands h
  | ioShuffle => exact Stands.ite (ioShuffleSendfile_stands cfg h) (ioShuffle_stands cfg env h)
  | done => exact processDone_stands h
  | timedOut => exact h
  | dead => exact h

/-! ### The end of the header -/

lemma acceptPost_stands (cfg : Config) (env : Env) (h : Stands pos room c) :
    Stands pos room (acceptPost cfg env c).2 := by
  have hfile : Stands pos room (createTemporaryFile env c).2 := by
    rw [createTemporaryFile]
    cases env.mkstemp with
    | none => exact h
    | some fd =>
        dsimp only
        split_ifs <;> exact h
  unfold acceptPost
  extract_lets res d
  have hd : Stands pos room d := hfile
  clear_value d
  have herror := hd.outputs (sendRError_outputs cfg env d)
  split_ifs
  · exact herror
  · exact hd
  · exact herror

lemma processHeaderEnd_stands (cfg : Config) (env : Env) (h : Stands pos room c) :
    Stands pos room (processHeaderEnd cfg env c).2 := by
  have hdec {r : Request} (hr : Decodes c.req r) :
      Stands pos room { c.emit .headerEnd with req := r } := by
    obtain ⟨_, _, _, rfl⟩ := hr
    exact h
  rcases processHeaderEnd_cases cfg env c with ⟨-, r, hr, heq | heq⟩ | ⟨r, -, hr, heq⟩
  · rw [heq]
    exact (hdec hr).outputs (sendRError_outputs cfg env _)
  · rw [heq]
    exact (hdec hr).outputs (sendRBadRequest_outputs cfg env _)
  rw [heq]
  have hd := hdec hr
  generalize ({ c.emit .headerEnd with req := r } : Conn) = d at hd ⊢
  have htrans : Stands pos room (translated cfg env d) := by
    obtain ⟨_, _, _, _, _, h⟩ := translateUri_translates cfg env env.scriptBuf d.req
    rw [translated, h]
    exact hd
  rcases translateRequest_cases cfg env d with ⟨-, h⟩ | ⟨-, h⟩ | ⟨-, -, ⟨-, h⟩ | ⟨-, -, h⟩
    | ⟨-, -, h⟩⟩
  · rw [h]
    have hpages := htrans.outputs (sendPages_outputs cfg env
      (translateUri cfg env env.scriptBuf d.req).page _)
    exact hpages
  · rw [h]
    exact htrans.outputs (sendRForbidden_outputs cfg env _)
  · rw [h]
    exact acceptPost_stands cfg env htrans
  · rw [h]
    exact initCgi_stands cfg env htrans
  · rw [h]
    have hwrite : Stands pos room ((translated cfg env d).setStatus .write) := htrans
    exact initGet_stands cfg env hwrite

lemma headerPost_stands (cfg : Config) (env : Env) (h : Stands pos room c) :
    Stands pos room (headerPost cfg env c).2 := by
  unfold headerPost
  extract_lets e
  have he : Stands pos room e := h
  have hbad := he.outputs (sendRBadRequest_outputs cfg env e)
  cases e.req.contentLength with
  | none => exact hbad
  | some off => exact Stands.ite hbad (Stands.ite hbad he)

lemma headerBlankLine_stands (cfg : Config) (env : Env) (h : Stands pos room c) :
    Stands pos room (headerBlankLine cfg env c).2 := by
  have hend := processHeaderEnd_stands cfg env h
  rw [headerBlankLine]
  generalize processHeaderEnd cfg env c = res at hend ⊢
  obtain ⟨retval, d⟩ := res
  exact Stands.ite (headerPost_stands cfg env hend) hend

end Yabwf
