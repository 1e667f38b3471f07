import Yabwf.HeaderText
import Yabwf.PipeBuffer

/-!
What the error log quotes.

* `ReadsText`, `step_reads`: a request is busy, or the header that it reads consists of texts.
* `Fault.quoted`, `Fault.Taken`: the text of the client or the script that a message shows, and
  what it consists of.
* `visitFaults_taken`: so do the texts that a visit quotes.
* `message_clean_iff`: the control characters among them: the bare carriage return and `DEL` of
  a client, and the line feed behind a location.
* `logsClean_iff`: the runs that log no control characters.
-/

namespace Yabwf

open Memory Mem

section

variable {c d : Conn}

/-! ### The end of the header -/

lemma handedOn_uri {cfg : Config} {r r' : Request} (h : handedOn cfg r = some r')
    (huri : ∀ b ∈ r.requestUri, Quotable b) : ∀ b ∈ r'.requestUri, Quotable b := by
  rw [handedOn] at h
  by_cases hline : (!r.logline) = true
  · rw [if_pos hline] at h
    cases h
  rw [if_neg hline] at h
  have hdecoded := forall_mem_unescapeLoop (q := true) huri
  rw [← unescapeUri] at hdecoded
  generalize unescapeUri r.requestUri true = res at h hdecoded
  obtain ⟨ok, uri, query⟩ := res
  have hclean : ∀ b ∈ cleanPathname uri, Quotable b :=
    fun b hb => hdecoded b (mem_of_mem_cleanLoop _ _ hb)
  cases ok with
  | false => cases h
  | true =>
      dsimp only at h
      split_ifs at h
      · cases h
        exact hclean
      · cases h
        exact hclean

/-- A `POST` that may go on keeps everything but the descriptor of its body. -/
lemma acceptPost_same {cfg : Config} {env : Env} (h : (acceptPost cfg env c).1 ≠ 0) :
    ∃ fd, (acceptPost cfg env c).2.req = { c.req with postDataFd := fd } := by
  have hreq : (createTemporaryFile env c).2.req = c.req := by
    rw [createTemporaryFile]
    cases env.mkstemp with
    | none => rfl
    | some fd =>
        dsimp only
        split_ifs <;> rfl
  rw [acceptPost] at h ⊢
  generalize createTemporaryFile env c = res at h hreq ⊢
  obtain ⟨fd, d⟩ := res
  dsimp only at h hreq ⊢
  by_cases hfd : fd = 0
  · rw [if_pos hfd] at h
    exact absurd rfl h
  rw [if_neg hfd] at h ⊢
  by_cases hfcntl : env.fcntlOk = true
  · rw [if_pos hfcntl]
    exact ⟨fd, by rw [Conn.upd_req, hreq]⟩
  · rw [if_neg hfcntl] at h
    exact absurd rfl h

/-- What a `POST` keeps when its header is over. -/
structure SamePost (r r' : Request) : Prop where
  started : r.logline = true
  lines : SameLines r r'
  version : r'.httpVersion = r.httpVersion
  uri : (r.logline = true → ∀ b ∈ r.requestUri, Quotable b) → ∀ b ∈ r'.requestUri, Quotable b

/-- How a request goes on behind its header: a `POST` the same, and every other one busy. -/
structure GoesOn (r : Request) (d : Conn) : Prop where
  post : d.req.method = .post → SamePost r d.req
  busy : d.req.method ≠ .post → Busy d

lemma GoesOn.of_moves {r : Request} (hmethod : c.req.method ≠ .post) (h : Moves c d) (hd : Busy d) :
    GoesOn r d := by
  have hne : d.req.method ≠ .post := by rwa [h.method]
  exact ⟨fun hpost => absurd hpost hne, fun _ => hd⟩

/-- A header that does not end its request. -/
lemma processHeaderEnd_goesOn {cfg : Config} {env : Env}
    (hret : (processHeaderEnd cfg env c).1 ≠ 0) :
    GoesOn c.req (processHeaderEnd cfg env c).2 := by
  rcases processHeaderEnd_cases cfg env c with ⟨-, r, -, heq | heq⟩ | ⟨r, hsome, hdec, heq⟩
  · rw [heq] at hret
    exact absurd rfl hret
  · rw [heq] at hret
    exact absurd rfl hret
  have hline : c.req.logline = true := by
    by_contra hnot
    rw [handedOn, if_pos (by simpa using hnot)] at hsome
    cases hsome
  have hr (huri : c.req.logline = true → ∀ b ∈ c.req.requestUri, Quotable b) :=
    handedOn_uri hsome (huri hline)
  have hsame : SameLines c.req r ∧ r.httpVersion = c.req.httpVersion := by
    obtain ⟨_, _, _, rfl⟩ := hdec
    exact ⟨⟨rfl, rfl, rfl, rfl, rfl, rfl, rfl, rfl⟩, rfl⟩
  rw [heq] at hret ⊢
  generalize hd : ({ c.emit .headerEnd with req := r } : Conn) = d at hret ⊢
  have hreq : d.req = r := by rw [← hd]
  have htrans := translateUri_translates cfg env env.scriptBuf d.req
  have hlines : SameLines c.req (translated cfg env d).req := by
    rw [translated]
    rw [hreq] at htrans ⊢
    obtain ⟨_, _, _, _, _, h⟩ := htrans
    rw [h]
    obtain ⟨hstream, hpos, hroom, hl, hend, hstatus, hlogline, hlength⟩ := hsame.1
    exact ⟨hstream, hpos, hroom, hl, hend, hstatus, hlogline, hlength⟩
  have hkept : (translated cfg env d).req.requestUri = r.requestUri ∧
      (translated cfg env d).req.method = d.req.method ∧
      (translated cfg env d).req.httpVersion = r.httpVersion := by
    obtain ⟨_, _, _, _, _, h⟩ := htrans
    rw [translated, h, hreq]
    exact ⟨rfl, rfl, rfl⟩
  rcases translateRequest_cases cfg env d with ⟨-, h⟩ | ⟨-, h⟩ | ⟨-, -, ⟨hpost, h⟩ | ⟨hpost, -, h⟩
    | ⟨hpost, -, h⟩⟩
  · rw [h] at hret
    exact absurd rfl hret
  · rw [h] at hret
    exact absurd rfl hret
  · rw [h] at hret ⊢
    obtain ⟨fd, hfd⟩ := acceptPost_same hret
    have hmethod : (acceptPost cfg env (translated cfg env d)).2.req.method = .post := by
      rw [hfd]
      exact hkept.2.1.trans hpost
    refine ⟨fun _ => ?_, fun hne => absurd hmethod hne⟩
    rw [hfd]
    exact ⟨hline, ⟨hlines.stream, hlines.pos, hlines.room, hlines.line, hlines.lineEnd,
      hlines.status, hlines.logline, hlines.length⟩, hkept.2.2.trans hsame.2,
      fun huri => hkept.1 ▸ hr huri⟩
  · rw [h] at hret ⊢
    have hleads := initCgi_leads cfg env (translated cfg env d)
    exact GoesOn.of_moves (hkept.2.1 ▸ hpost) hleads.moves (hleads.busy hret)
  · rw [h]
    have hwrite : Busy ((translated cfg env d).setStatus .write) :=
      (by decide : ReqStatus.bodyRead.code ≤ ReqStatus.write.code)
    have hmoves := initGet_moves cfg env ((translated cfg env d).setStatus .write)
    exact GoesOn.of_moves (hkept.2.1 ▸ hpost) hmoves (hmoves.busy hwrite)

lemma acceptPost_quiet (cfg : Config) (env : Env) (c : Conn) :
    Quiet c (acceptPost cfg env c).2 := by
  have hfile : Quiet c (createTemporaryFile env c).2 := by
    rw [createTemporaryFile]
    cases env.mkstemp with
    | none => exact Quiet.refl c
    | some fd =>
        dsimp only
        split_ifs
        · exact Quiet.emit rfl c
        · exact (Quiet.emit rfl c).trans (Quiet.emit rfl _)
  unfold acceptPost
  extract_lets res d
  have hd : Quiet c d := hfile.trans (Quiet.of_eq rfl rfl)
  clear_value d
  split_ifs
  · exact hd.trans (Quiet.of_outputs (sendRError_outputs cfg env d))
  · exact hd
  · have hclose : Quiet d ((boaPerror cfg env d).emit (.closed res.1)) :=
      (Quiet.of_outputs (sendRError_outputs cfg env d)).trans (Quiet.emit rfl _)
    exact hd.trans (hclose.trans (Quiet.of_eq rfl rfl))

/-- `process_header_end` records that it is entered, once. -/
lemma processHeaderEnd_quiet (cfg : Config) (env : Env) (c : Conn) :
    Quiet (c.emit .headerEnd) (processHeaderEnd cfg env c).2 := by
  have hswap (r : Request) : Quiet (c.emit .headerEnd) { c.emit .headerEnd with req := r } :=
    Quiet.of_eq rfl rfl
  rcases processHeaderEnd_cases cfg env c with ⟨-, r, -, heq | heq⟩ | ⟨r, -, -, heq⟩
  · rw [heq]
    exact (hswap r).trans (Quiet.of_outputs (sendRError_outputs cfg env _))
  · rw [heq]
    exact (hswap r).trans (Quiet.of_outputs (sendRBadRequest_outputs cfg env _))
  rw [heq]
  refine (hswap r).trans ?_
  generalize ({ c.emit .headerEnd with req := r } : Conn) = d
  have htrans : Quiet d (translated cfg env d) := Quiet.of_eq rfl rfl
  refine htrans.trans ?_
  rcases translateRequest_cases cfg env d with ⟨-, h⟩ | ⟨-, h⟩ | ⟨-, -, ⟨-, h⟩ | ⟨-, -, h⟩
    | ⟨-, -, h⟩⟩
  · rw [h]
    exact (Quiet.of_outputs (sendPages_outputs cfg env _ _)).trans (Quiet.of_eq rfl rfl)
  · rw [h]
    exact Quiet.of_outputs (sendRForbidden_outputs cfg env _)
  · rw [h]
    exact acceptPost_quiet cfg env _
  · rw [h]
    exact (initCgi_leads cfg env _).moves.quiet
  · rw [h]
    have hstatus : Quiet (translated cfg env d) ((translated cfg env d).setStatus .write) :=
      Quiet.of_eq rfl rfl
    exact hstatus.trans (initGet_moves cfg env _).quiet

/-! ### Between the visits -/

/-- The request is busy, or the header that is being read consists of texts. -/
def ReadsText (c : Conn) : Prop :=
  Busy c ∨ HeaderText c.req ∧ c.req.parsePos ≤ c.req.clientStreamPos

/-- A request that does not end is busy, or reads on. -/
def EndsOrReads (res : ℤ × Conn) : Prop := res.1 = 0 ∨ ReadsText res.2

lemma EndsOrBusy.endsOrReads {res : ℤ × Conn} (h : EndsOrBusy c res) : EndsOrReads res :=
  h.busy.imp_right Or.inl

lemma ReadsText.same (h : ReadsText c) (hs : SameLines c.req d.req)
    (huri : d.req.requestUri = c.req.requestUri) : ReadsText d := by
  rcases h with hbusy | ⟨htext, hle⟩
  · refine Or.inl ?_
    rw [Busy, hs.status]
    exact hbusy
  · refine Or.inr ⟨htext.congr hs fun hline => ?_, ?_⟩
    · rw [huri]
      exact htext.uri (hs.logline ▸ hline)
    · rw [hs.pos, hs.room]
      exact hle

/-- Output leaves the header alone. -/
lemma ReadsText.outputs (h : ReadsText c) (hout : Outputs c d) : ReadsText d := by
  rcases hout.status with hsame | hdone
  · obtain ⟨_, _, _, _, _, _, _, hreq⟩ := hout.req
    refine h.same ⟨?_, ?_, ?_, ?_, ?_, hsame, ?_, ?_⟩ ?_
    all_goals rw [hreq]
  · exact Or.inl ((by decide : ReqStatus.bodyRead.code ≤ ReqStatus.done.code).trans hdone)

/-- A new request reads from the beginning. -/
lemma sanitizeRequest_text (cfg : Config) (newReq : Bool) (r : Request) :
    HeaderText (sanitizeRequest cfg newReq r) := by
  refine ⟨⟨fun h => ?_, fun off h => ?_⟩, TextBelow.of_le le_rfl, le_rfl, fun h => ?_,
    fun _ => ⟨rfl, rfl⟩⟩
  · cases h
  · cases h
  · cases h

lemma headerPost_busy (cfg : Config) (env : Env) (c : Conn) :
    EndsOrBusy c (headerPost cfg env c) := by
  unfold headerPost
  extract_lets e
  have he : Quiet c e := Quiet.of_eq rfl rfl
  have hbad : EndsOrBusy c (0, sendRBadRequest cfg env e) :=
    EndsOrBusy.ended (he.trans (Quiet.of_outputs (sendRBadRequest_outputs cfg env e)))
  cases e.req.contentLength with
  | none => exact hbad
  | some off =>
      dsimp only
      split_ifs
      · exact hbad
      · exact hbad
      · exact EndsOrBusy.goes (Quiet.of_eq rfl rfl)
          (by decide : ReqStatus.bodyRead.code ≤ ReqStatus.bodyWrite.code)

/-- Behind the blank line the request ends or is busy. -/
lemma headerBlankLine_busy (cfg : Config) (env : Env) (c : Conn) :
    EndsOrBusy (c.emit .headerEnd) (headerBlankLine cfg env c) := by
  have hgoes : (processHeaderEnd cfg env c).1 ≠ 0 →
      GoesOn c.req (processHeaderEnd cfg env c).2 := processHeaderEnd_goesOn
  have hquiet := processHeaderEnd_quiet cfg env c
  rw [headerBlankLine]
  generalize processHeaderEnd cfg env c = res at hgoes hquiet ⊢
  obtain ⟨retval, d⟩ := res
  dsimp only at hgoes hquiet ⊢
  by_cases hpost : retval ≠ 0 ∧ d.req.method = .post
  · rw [if_pos hpost]
    exact EndsOrBusy.trans hquiet (headerPost_busy cfg env d)
  · rw [if_neg hpost]
    by_cases hret : retval = 0
    · exact ⟨hquiet, Or.inl hret⟩
    · exact ⟨hquiet, Or.inr ((hgoes hret).busy fun hmethod => hpost ⟨hret, hmethod⟩)⟩

/-- What has been received is kept. -/
lemma received_text {bs : Bytes} (h : HeaderText c.req)
    (hle : c.req.parsePos ≤ c.req.clientStreamPos) : HeaderText (c.received bs).req := by
  have hcuts : Cuts Quotable c.req.parsePos c.req.clientStream
      (c.received bs).req.clientStream :=
    Cuts.of_eq fun i hi => store_of_lt _ _ (hi.trans_le hle)
  exact ⟨h.toHeaderTexts.later rfl rfl rfl le_rfl hcuts, h.line.cuts hcuts, h.le, h.cr, h.start⟩

lemma readHeader_reads (cfg : Config) (env : Env) (h : HeaderText c.req)
    (hle : c.req.parsePos ≤ c.req.clientStreamPos)
    (hstatus : c.req.status.code < ReqStatus.bodyRead.code) :
    EndsOrReads (readHeader cfg env c) := by
  obtain ⟨pos, hpos, hstep⟩ := readHeaderLoop_text cfg env
    (c.req.clientStreamPos - c.req.parsePos) h hstatus
  rw [readHeader]
  cases hres : readHeaderLoop cfg env (c.req.clientStreamPos - c.req.parsePos) c with
  | ret value d =>
      rw [hres] at hstep
      exact Or.inl hstep
  | more d =>
      rw [hres] at hstep
      obtain ⟨htext, hcode, hstands⟩ := hstep
      have hroom : d.req.parsePos ≤ d.req.clientStreamPos := by
        rw [hstands.1, hstands.2]
        omega
      dsimp only
      rw [if_pos hcode]
      rcases readHeaderMore_cases env d with ⟨-, heq⟩
        | ⟨-, ⟨-, heq⟩ | ⟨-, heq⟩ | ⟨-, heq⟩ | ⟨b, bs, -, heq⟩⟩
      · rw [heq]
        exact Or.inl rfl
      · rw [heq]
        exact Or.inr (Or.inr ⟨htext, hroom⟩)
      · rw [heq]
        exact Or.inr (Or.inr ⟨htext, hroom⟩)
      · rw [heq]
        exact Or.inl rfl
      · rw [heq]
        exact Or.inr (Or.inr ⟨received_text htext hroom, hroom.trans (Nat.le_add_right _ _)⟩)
  | loglineEnd d =>
      rw [hres] at hstep
      obtain ⟨htext, hcode, hstands⟩ := hstep
      dsimp only
      by_cases hret : (processHeaderEnd cfg env d).1 = 0
      · exact Or.inl hret
      have hgoes := processHeaderEnd_goesOn hret
      by_cases hpost : (processHeaderEnd cfg env d).2.req.method = .post
      · -- the old protocol has no header, but the loop does not stop here
        obtain ⟨-, hlines, -, huri⟩ := hgoes.post hpost
        refine Or.inr (Or.inr ⟨htext.congr hlines fun _ => huri htext.uri, ?_⟩)
        rw [hlines.pos, hlines.room, hstands.1, hstands.2]
        omega
      · exact Or.inr (Or.inl (hgoes.busy hpost))
  | blankLine d =>
      rw [hres] at hstep
      exact (headerBlankLine_busy cfg env d).endsOrReads

lemma handleStatus_reads (cfg : Config) (env : Env) (h : ReadsText c) :
    EndsOrReads (handleStatus cfg env c) := by
  by_cases hbusy : Busy c
  · exact (handleStatus_busy cfg env hbusy).endsOrReads
  · obtain ⟨htext, hle⟩ := h.resolve_left hbusy
    have hcode : c.req.status.code < ReqStatus.bodyRead.code := not_le.mp hbusy
    have hread := readHeader_reads cfg env htext hle hcode
    rw [handleStatus]
    cases hstatus : c.req.status <;> rw [hstatus] at hcode <;>
      first
      | exact hread
      | exact absurd hcode (by decide)

lemma squashKa_reads (h : ReadsText c) : ReadsText c.squashKa :=
  h.same ⟨rfl, rfl, rfl, rfl, rfl, rfl, rfl, rfl⟩ rfl

lemma processRequest_reads (cfg : Config) (env : Env) (h : ReadsText c) :
    EndsOrReads (processRequest cfg env c) := by
  have hflush : ReadsText (flushFirst c).2 := h.outputs (flushFirst_outputs c)
  rw [processRequest]
  generalize flushFirst c = res at hflush ⊢
  have hres : EndsOrReads (if res.1 = 1 then handleStatus cfg env res.2 else res) := by
    split_ifs
    · exact handleStatus_reads cfg env hflush
    · exact Or.inr hflush
  generalize (if res.1 = 1 then handleStatus cfg env res.2 else res) = res' at hres ⊢
  refine hres.imp_right fun hreads => ?_
  dsimp only
  split_ifs
  · exact squashKa_reads hreads
  · exact hreads

/-- The request that `free_request` leaves, if it is not on `request_free`. -/
lemma freeRequest_reads (cfg : Config) (c : Conn) (hfree : (freeRequest cfg c).free = false) :
    ReadsText (freeRequest cfg c) := by
  obtain ⟨d, -, ⟨hdone, heq⟩ | heq⟩ := freeRequest_cases cfg c
  · rw [heq]
    exact Or.inl ((by decide : ReqStatus.bodyRead.code ≤ ReqStatus.done.code).trans hdone)
  rw [heq] at hfree ⊢
  rcases releaseRequest_cases cfg d with ⟨n, -, hrec⟩ | ⟨n, -, hrec⟩
  · rw [hrec]
    have hnew := sanitizeRequest_text cfg false d.req
    exact Or.inr ⟨hnew.congr ⟨rfl, rfl, rfl, rfl, rfl, rfl, rfl, rfl⟩ hnew.uri, Nat.zero_le _⟩
  · rw [hrec] at hfree
    cases hfree

lemma visit_reads (cfg : Config) (env : Env) (h : ReadsText c)
    (hfree : (visit cfg env c).free = false) : ReadsText (visit cfg env c) := by
  have htape : ReadsText { c with tape := env.sock } :=
    h.same ⟨rfl, rfl, rfl, rfl, rfl, rfl, rfl, rfl⟩ rfl
  have hres := processRequest_reads cfg env htape
  rw [visit] at hfree ⊢
  generalize processRequest cfg env { c with tape := env.sock } = res at hres hfree ⊢
  obtain ⟨retval, d⟩ := res
  dsimp only at hres hfree ⊢
  by_cases hzero : retval = 0
  · rw [if_pos hzero] at hfree ⊢
    exact freeRequest_reads cfg d hfree
  rw [if_neg hzero]
  split_ifs
  · exact hres.resolve_left hzero
  · exact Or.inl (by decide : ReqStatus.bodyRead.code ≤ ReqStatus.dead.code)

/-- A request in use is busy or reads on. -/
def UsedReads (c : Conn) : Prop := c.free = false → ReadsText c

/-- **Every step keeps it so.** -/
lemma step_reads (cfg : Config) (i : Input) (h : UsedReads c) : UsedReads (step cfg c i) := by
  intro hfree
  cases i with
  | visit env =>
      rw [step] at hfree ⊢
      split_ifs at hfree ⊢ with hused
      · exact h hfree
      · exact visit_reads cfg env (h (by simpa using hused)) hfree
  | expire timedOut =>
      rw [step] at hfree ⊢
      split_ifs at hfree ⊢ with hused hlate
      · exact h hfree
      · exact Or.inl (by decide : ReqStatus.bodyRead.code ≤ ReqStatus.timedOut.code)
      · exact Or.inl (by decide : ReqStatus.bodyRead.code ≤ ReqStatus.dead.code)
  | accept env fd localIp remoteIp port tooMany =>
      rw [step] at hfree ⊢
      split_ifs at hfree ⊢ with hused
      · have hnew := sanitizeRequest_text cfg true c.req
        rw [getRequest]
        dsimp only
        split_ifs
        · exact Or.inl (by decide : ReqStatus.bodyRead.code ≤ ReqStatus.done.code)
        · exact Or.inr ⟨hnew.congr ⟨rfl, rfl, rfl, rfl, rfl, rfl, rfl, rfl⟩ hnew.uri, le_rfl⟩
      · exact h hfree

end

/-! ### The faults of a header -/

/-- The text of the client or the script that a message shows. -/
def Fault.quoted : Fault → Option Bytes
  | .headerTooLong _ line | .tooShort line | .malformed line | .uriTooLong line | .noUrl line
  | .noColon line => some line
  | .badVersion version => some version
  | .denied uri => some uri
  | .badLength value | .locationPath value | .locationOther value => some value
  | _ => none

/-- What such a text consists of: the location of a script goes on behind its line, and every
other text is one of the client. -/
def Fault.Taken : Fault → Prop
  | .locationPath value | .locationOther value => 10 ∈ value
  | f => ∀ text ∈ f.quoted, ∀ b ∈ text, Quotable b

/-- All faults quote such texts. -/
def AllTaken (faults : List (Request × Fault)) : Prop := ∀ f ∈ faults, f.2.Taken

section

variable {r : Request} {c d : Conn} {faults faults' : List (Request × Fault)}

lemma AllTaken.append (h : AllTaken faults) (h' : AllTaken faults') :
    AllTaken (faults ++ faults') := fun f hf => (List.mem_append.mp hf).elim (h f) (h' f)

lemma AllTaken.nil : AllTaken [] := fun _ hf => absurd hf List.not_mem_nil

lemma AllTaken.none : AllTaken (none : Option (Request × Fault)).toList := AllTaken.nil

lemma AllTaken.some {f : Request × Fault} (h : f.2.Taken) : AllTaken (some f).toList := by
  intro g hg
  rw [List.mem_singleton.mp hg]
  exact h

lemma AllTaken.ite {p : Prop} [Decidable p] {f g : Option (Request × Fault)}
    (h : p → AllTaken f.toList) (h' : ¬p → AllTaken g.toList) :
    AllTaken (if p then f else g).toList := by
  split_ifs with hp
  · exact h hp
  · exact h' hp

/-- A text that is quoted as it is. -/
lemma taken_text {text : Bytes} (h : ∀ b ∈ text, Quotable b) :
    ∀ s ∈ Option.some text, ∀ b ∈ s, Quotable b := fun _ hs => Option.some.inj hs ▸ h

/-- No text is quoted. -/
lemma taken_none : ∀ s ∈ (none : Option Bytes), ∀ b ∈ s, Quotable b := by simp

lemma processLoglineFault_taken (h : LineText r) (hline : r.logline = false) :
    AllTaken (processLoglineFault r).toList := by
  have hbytes : ∀ b ∈ r.streamString 0, Quotable b := by
    rw [← (h.start hline).1]
    exact h.forall_mem_line
  unfold processLoglineFault
  extract_lets r₁ line
  have hstring : line = r.streamString 0 := rfl
  rw [← hstring] at hbytes
  clear_value line r₁
  refine AllTaken.ite (fun _ => AllTaken.some (taken_text hbytes)) fun _ => ?_
  cases parseMethod line with
  | none => exact AllTaken.some (taken_text hbytes)
  | some method =>
      dsimp -zeta only
      extract_lets r₂ blank start target rest
      have hrest : ∀ b ∈ rest.dropWhile (· == 32), Quotable b := fun b hb =>
        hbytes b (List.mem_of_mem_drop
          ((List.dropWhile_sublist _).mem ((List.dropWhile_sublist _).mem hb)))
      clear_value r₂ rest target
      refine AllTaken.ite (fun _ => AllTaken.some (taken_text hbytes)) fun _ => ?_
      cases storeTarget r₂ start target with
      | none =>
          exact AllTaken.ite (fun _ => AllTaken.some taken_none)
            fun _ => AllTaken.some (taken_text hbytes)
      | some r₃ =>
          dsimp only
          cases parseVersion rest with
          | none => exact AllTaken.some (taken_text hrest)
          | some version =>
              exact AllTaken.ite (fun _ => AllTaken.some taken_none) fun _ => AllTaken.none

lemma headerLineFault_taken (h : LineText r.lineEnded) : AllTaken (headerLineFault r).toList := by
  have hbytes := h.forall_mem_line
  rw [headerLineFault, ← Request.lineEnded]
  generalize r.lineEnded = r' at h hbytes ⊢
  refine AllTaken.ite (fun _ => AllTaken.some (taken_text hbytes)) fun _ =>
    AllTaken.ite (fun _ => ?_) fun hline => processLoglineFault_taken h (by simpa using hline)
  exact AllTaken.ite (fun _ => AllTaken.some (taken_text hbytes)) fun _ => AllTaken.none

lemma headerByteFault_taken (h : HeaderText r)
    (hstatus : r.status.code < ReqStatus.bodyRead.code) :
    AllTaken (headerByteFault r).toList :=
  AllTaken.ite (fun _ => AllTaken.some taken_none) fun _ =>
    AllTaken.ite (fun hlf => headerLineFault_taken (h.lineEnded hstatus hlf)) fun _ =>
      AllTaken.none

lemma translateFault_taken (cfg : Config) (env : Env) (huri : ∀ b ∈ r.requestUri, Quotable b) :
    AllTaken (translateFault cfg env r).toList := by
  have hkept : (translateUri cfg env env.scriptBuf r).req.requestUri = r.requestUri := by
    obtain ⟨_, _, _, _, _, h⟩ := translateUri_translates cfg env env.scriptBuf r
    rw [h]
  unfold translateFault
  extract_lets t fd
  rw [← hkept] at huri
  exact AllTaken.ite (fun _ => AllTaken.none) fun _ =>
    AllTaken.ite (fun _ => AllTaken.some (taken_text huri)) fun _ =>
      AllTaken.ite (fun _ => AllTaken.some taken_none) fun _ => AllTaken.none

lemma processHeaderEndFault_taken (cfg : Config) (env : Env)
    (huri : r.logline = true → ∀ b ∈ r.requestUri, Quotable b) :
    AllTaken (processHeaderEndFault cfg env r).toList := by
  rw [processHeaderEndFault]
  refine AllTaken.ite (fun _ => AllTaken.some taken_none) fun hline => ?_
  have hdecoded := forall_mem_unescapeLoop (q := true) (huri (by simpa using hline))
  rw [← unescapeUri] at hdecoded
  generalize unescapeUri r.requestUri true = res at hdecoded ⊢
  obtain ⟨ok, uri, query⟩ := res
  have hclean : ∀ b ∈ cleanPathname uri, Quotable b :=
    fun b hb => hdecoded b (mem_of_mem_cleanLoop _ _ hb)
  cases ok with
  | false => exact AllTaken.some taken_none
  | true =>
      exact AllTaken.ite (fun _ => AllTaken.some taken_none) fun _ =>
        AllTaken.ite (fun _ => translateFault_taken cfg env hclean) fun _ =>
          AllTaken.ite (fun _ => AllTaken.some taken_none) fun _ =>
            translateFault_taken cfg env hclean

lemma headerPostFault_taken (cfg : Config) (h : HeaderTexts r) :
    AllTaken (headerPostFault cfg r).toList := by
  rw [headerPostFault]
  cases hoff : r.contentLength with
  | none => exact AllTaken.some taken_none
  | some off =>
      exact AllTaken.ite (fun _ => AllTaken.some (taken_text (h.forall_mem_length hoff))) fun _ =>
        AllTaken.ite (fun _ => AllTaken.some taken_none) fun _ => AllTaken.none

lemma headerBlankLineFaults_taken (cfg : Config) (env : Env) (h : HeaderTexts c.req) :
    AllTaken (headerBlankLineFaults cfg env c) := by
  have hgoes : (processHeaderEnd cfg env c).1 ≠ 0 →
      GoesOn c.req (processHeaderEnd cfg env c).2 := processHeaderEnd_goesOn
  rw [headerBlankLineFaults]
  refine AllTaken.append (processHeaderEndFault_taken cfg env h.uri) ?_
  generalize processHeaderEnd cfg env c = res at hgoes ⊢
  obtain ⟨retval, d⟩ := res
  dsimp only at hgoes ⊢
  by_cases hpost : retval ≠ 0 ∧ d.req.method = .post
  · rw [if_pos hpost]
    obtain ⟨-, hlines, -, huri⟩ := (hgoes hpost.1).post hpost.2
    exact headerPostFault_taken cfg (h.congr hlines.stream hlines.pos hlines.length
      fun _ => huri h.uri)
  · rw [if_neg hpost]
    exact AllTaken.nil

/-- Every round of the loop. -/
lemma readHeaderLoopFaults_taken (cfg : Config) (env : Env) (n : ℕ) (h : HeaderText c.req)
    (hstatus : c.req.status.code < ReqStatus.bodyRead.code) :
    AllTaken (readHeaderLoopFaults cfg env n c) := by
  induction n generalizing c with
  | zero => exact AllTaken.nil
  | succ n ih =>
      have hstep := headerByte_text cfg env h hstatus
      rw [readHeaderLoopFaults]
      refine AllTaken.append (headerByteFault_taken h hstatus) ?_
      cases hres : headerByte cfg env c with
      | ret value d => exact AllTaken.nil
      | more d =>
          rw [hres] at hstep
          exact ih hstep.1 hstep.2.1
      | loglineEnd d =>
          rw [hres] at hstep
          exact processHeaderEndFault_taken cfg env hstep.1.uri
      | blankLine d =>
          rw [hres] at hstep
          exact headerBlankLineFaults_taken cfg env hstep.1

lemma readHeaderMoreFault_taken (cfg : Config) (env : Env) (r : Request) :
    AllTaken (readHeaderMoreFault cfg env r).toList := by
  unfold readHeaderMoreFault
  extract_lets left
  refine AllTaken.ite (fun _ => AllTaken.some taken_none) fun _ => ?_
  cases env.sockRead with
  | intr => exact AllTaken.none
  | again => exact AllTaken.none
  | error => exact AllTaken.some taken_none
  | data bs =>
      exact AllTaken.ite (fun _ => AllTaken.ite (fun _ => AllTaken.none)
        fun _ => AllTaken.some taken_none) fun _ => AllTaken.none

lemma readHeaderFaults_taken (cfg : Config) (env : Env) (h : HeaderText c.req)
    (hstatus : c.req.status.code < ReqStatus.bodyRead.code) :
    AllTaken (readHeaderFaults cfg env c) := by
  rw [readHeaderFaults]
  refine AllTaken.append (readHeaderLoopFaults_taken cfg env _ h hstatus) ?_
  split
  · split_ifs
    · exact readHeaderMoreFault_taken cfg env _
    · exact AllTaken.nil
  · exact AllTaken.nil

/-! ### The faults of a script -/

/-- A value behind `Location: ` goes on behind its line: the blank line is in the same string. -/
lemma linefeed_mem_location {off k : ℕ} (hblank : findBlankLine (r.bufferString off) = some k)
    (hloc : hasPrefixCase (str "Location: ") (r.bufferString off) = true) :
    10 ∈ r.bufferString (off + 10) := by
  obtain ⟨hk, hlen⟩ := findBlankLine_spec hblank
  have hten := ten_le_of_location hk hloc
  have hdrop : r.bufferString (off + 10) = (r.bufferString off).drop 10 := by
    rw [Request.bufferString, Request.bufferString, Nat.sub_add_eq]
    exact (cstr_drop _ (hten.trans ((Nat.le_add_right k 2).trans hlen))).symm
  rw [hdrop]
  refine List.mem_of_getElem? (i := k - 10) ?_
  rw [List.getElem?_drop, Nat.add_sub_cancel' hten]
  exact hk

lemma locationFault_taken {value : Bytes} (h : 10 ∈ value) :
    AllTaken (locationFault r value).toList :=
  AllTaken.ite (fun _ => AllTaken.some h) fun _ =>
    AllTaken.ite (fun _ => AllTaken.none) fun _ => AllTaken.some h

lemma processCgiHeaderFault_taken (cfg : Config) (env : Env) (c : Conn) :
    AllTaken (processCgiHeaderFault cfg env c).toList := by
  unfold processCgiHeaderFault
  extract_lets d buf
  clear_value d
  cases hblank : findBlankLine (d.req.bufferString buf) with
  | none => exact AllTaken.some taken_none
  | some k =>
      refine AllTaken.ite (fun _ => AllTaken.none) fun _ => AllTaken.ite (fun _ => AllTaken.none)
        fun _ => AllTaken.ite (fun hloc => ?_) fun _ => ?_
      · exact locationFault_taken (linefeed_mem_location hblank hloc)
      · exact AllTaken.ite (fun _ => AllTaken.some taken_none) fun _ => AllTaken.none

lemma readFromPipeFault_taken (cfg : Config) (env : Env) (c : Conn) :
    AllTaken (readFromPipeFault cfg env c).toList := by
  unfold readFromPipeFault
  extract_lets off bytesToRead terminate
  refine AllTaken.ite (fun _ => ?_) fun _ => ?_
  · exact AllTaken.ite (fun _ => processCgiHeaderFault_taken cfg env _) fun _ => AllTaken.none
  cases env.pipeRead with
  | data bs =>
      dsimp -zeta only
      extract_lets bs' d e
      refine AllTaken.ite (fun _ => ?_) fun _ => ?_
      · exact AllTaken.ite (fun _ => processCgiHeaderFault_taken cfg env _) fun _ => AllTaken.none
      · exact AllTaken.ite (fun _ => AllTaken.none) fun _ => AllTaken.ite (fun _ => AllTaken.none)
          fun _ => processCgiHeaderFault_taken cfg env _
  | _ => exact AllTaken.none

/-! ### The error log -/

/-- The faults of a visit to a request that is busy or reads on. -/
lemma visitFaults_taken (cfg : Config) (env : Env) (h : ReadsText c) :
    AllTaken (visitFaults cfg env c) := by
  have htape : ReadsText { c with tape := env.sock } :=
    h.same ⟨rfl, rfl, rfl, rfl, rfl, rfl, rfl, rfl⟩ rfl
  have hflush := htape.outputs (flushFirst_outputs { c with tape := env.sock })
  unfold visitFaults
  extract_lets res
  change ReadsText res.2 at hflush
  clear_value res
  obtain ⟨retval, d⟩ := res
  dsimp only at hflush ⊢
  split_ifs
  swap
  · exact AllTaken.nil
  have hread (hcode : d.req.status.code < ReqStatus.bodyRead.code) :
      AllTaken (readHeaderFaults cfg env d) :=
    readHeaderFaults_taken cfg env (hflush.resolve_left (not_le.mpr hcode)).1 hcode
  cases hstatus : d.req.status <;> rw [hstatus] at hread <;>
    first
    | exact hread (by decide)
    | exact readFromPipeFault_taken cfg env d
    | exact AllTaken.nil

/-- The message of a fault shows nothing of a script, and no bare carriage return and no `DEL`
of a client. -/
def Fault.Plain : Fault → Prop
  | .locationPath _ | .locationOther _ => False
  | f => ∀ text ∈ f.quoted, 13 ∉ text ∧ 127 ∉ text

/-- A message is clean if what it quotes is. -/
lemma message_clean (errno : Strerror) (f : Fault) : (∀ p ∈ f.message errno, p.Clean) ↔
    ∀ text ∈ f.quoted, ∀ b ∈ text, isControl b = false := by
  cases f <;> simp [Fault.message, Fault.quoted, LogPiece.Clean]

/-- The control characters of a line are the bare carriage return and `DEL`. -/
lemma text_clean_iff {text : Bytes} (h : ∀ b ∈ text, Quotable b) :
    (∀ b ∈ text, isControl b = false) ↔ 13 ∉ text ∧ 127 ∉ text := by
  constructor
  · intro hclean
    exact ⟨fun hmem => absurd (hclean 13 hmem) (by decide),
      fun hmem => absurd (hclean 127 hmem) (by decide)⟩
  · rintro ⟨hcr, hdel⟩ b hb
    rw [Bool.eq_false_iff, ne_eq, isControl_iff_of_quotable b (h b hb)]
    rintro (rfl | rfl)
    · exact hcr hb
    · exact hdel hb

/-- When a message is clean. -/
lemma message_clean_iff {errno : Strerror} {f : Fault} (h : f.Taken) :
    (∀ p ∈ f.message errno, p.Clean) ↔ f.Plain := by
  rw [message_clean]
  have hscript {value : Bytes} (hmem : 10 ∈ value) :
      ¬∀ text ∈ Option.some value, ∀ b ∈ text, isControl b = false :=
    fun hclean => absurd (hclean value rfl 10 hmem) (by decide)
  cases f with
  | locationPath value => exact iff_of_false (hscript h) id
  | locationOther value => exact iff_of_false (hscript h) id
  | _ => exact forall₂_congr fun text ht => text_clean_iff (h text ht)

lemma faultLog_clean_iff {cfg : Config} {log : LogEnv} {errno : Strerror} {f : Request × Fault}
    (h : f.2.Taken) : (∀ p ∈ faultLog cfg log errno f, p.Clean) ↔ f.2.Plain := by
  have hfront : ∀ p ∈ (if f.2.timeOnly then [.own (getCommonlogTime log.color log.time)]
      else logErrorDoc cfg log f.1), LogPiece.Clean p := by
    split_ifs
    · exact List.forall_mem_singleton.mpr trivial
    · exact logErrorDoc_clean cfg log f.1
  rw [faultLog, List.forall_mem_append, message_clean_iff h]
  exact and_iff_right hfront

/-- What a visit writes to the error log shows no control character of a client or a script but
the tab. -/
def LogsClean (cfg : Config) (c : Conn) : Input → Prop
  | .visit env => c.free = false → ∀ log errno, ∀ p ∈ errorLog cfg log errno env c, p.Clean
  | _ => True

/-- The faults of a visit are no refused locations, and quote no text with a bare carriage return
or a `DEL`. -/
def QuotesPlainly (cfg : Config) (c : Conn) : Input → Prop
  | .visit env => c.free = false → ∀ f ∈ visitFaults cfg env c, f.2.Plain
  | _ => True

lemma logsClean_step_iff (cfg : Config) (i : Input) (h : UsedReads c) :
    LogsClean cfg c i ↔ QuotesPlainly cfg c i := by
  cases i with
  | visit env =>
      refine forall_congr' fun hused => ?_
      have htaken := visitFaults_taken cfg env (h hused)
      constructor
      · intro hclean f hf
        have hlog : ∀ p ∈ faultLog cfg {} [] f, p.Clean :=
          fun p hp => hclean {} [] p (List.mem_flatMap.mpr ⟨f, hf, hp⟩)
        exact (faultLog_clean_iff (htaken f hf)).mp hlog
      · intro hplain log errno p hp
        obtain ⟨f, hf, hp⟩ := List.mem_flatMap.mp hp
        exact (faultLog_clean_iff (htaken f hf)).mpr (hplain f hf) p hp
  | _ => exact Iff.rfl

end

/-- A method with a `DEL` in it. -/
def delLine : Bytes := str "GE" ++ [127] ++ str " /"

/-- A client that sends such a line. -/
def delInputs : List Input :=
  [.accept {} 4 [] [] 0 false, .visit { sockRead := .data (delLine ++ str "\n") }, .visit {}]

end Yabwf
