import Yabwf.ClientStream
import Yabwf.Decoding
import Yabwf.Descriptors

/-!
No descriptor is leaked.

* `processHeaderEnd_holds`, `readHeader_holds`: the header, at the end of which a request has its
  file.
* `Settled`, `processRequest_holds`: between two visits a request has nothing at hand.
* `freeRequest_holds`: the end of a request closes what its fields name.
* `descriptors_closed`: in every run each descriptor is closed once by the time its request ends.
-/

namespace Yabwf

open Memory Ledger

variable {lo fd post : ℕ} {tmp tmp' : List ℕ} {c d : Conn}

/-! ### The end of the header -/

/-- What the end of a header leaves: unless the request ends, a `POST` has its file at hand, and
any other request is past its body. -/
def HeaderHolds (res : ℤ × Conn) : Prop :=
  Holds 0 [] res.2 ∧ (res.1 ≠ 0 →
    (res.2.req.method = .post ∧ res.2.req.dataFd = 0 ∧ res.2.req.postDataFd ≠ 0) ∨
      (res.2.req.method ≠ .post ∧ ReqStatus.write.code ≤ res.2.req.status.code))

lemma HeaderHolds.ended (h : Holds 0 [] c) : HeaderHolds (0, c) :=
  ⟨h, fun hne => absurd rfl hne⟩

lemma HeaderHolds.of_starts {res : ℤ × Conn} (h : Starts 0 res)
    (hmethod : res.2.req.method ≠ .post) : HeaderHolds res :=
  ⟨h.1, fun hne => Or.inr ⟨hmethod, h.2 hne⟩⟩

/-- The file of a `POST` is opened. -/
lemma acceptPost_holds (cfg : Config) {env : Env} (hfresh : env.Fresh [0]) (h : Holds 0 [] c)
    (hmethod : c.req.method = .post) (hdata : c.req.dataFd = 0) (hpost : c.req.postDataFd = 0) :
    HeaderHolds (acceptPost cfg env c) := by
  have hdone : 0 ≤ ReqStatus.done.code := Nat.zero_le _
  have hnone {d : Conn} (hd : Holds 0 [] d) (hd0 : d.req.postDataFd = 0) :
      Holds 0 [] (d.upd fun r => { r with postDataFd := 0 }) :=
    hd.congr hd.1 rfl hd0.symm ⟨[], (List.append_nil _).symm, by simp⟩
  unfold acceptPost createTemporaryFile
  cases htmp : env.mkstemp with
  | none => exact HeaderHolds.ended ((hnone h hpost).outputs hdone (sendRError_outputs cfg env _))
  | some fd =>
      obtain ⟨hlt, -⟩ := hfresh.temporary fd htmp
      have hfd : fd ≠ 0 := by omega
      have hopened : Holds 0 [fd] (c.emit (.opened fd)) := by
        refine h.opened List.not_mem_nil fun hmem => ?_
        rw [hdata, hpost] at hmem
        cases hmem
      dsimp only
      by_cases hunlink : env.unlinkOk = true
      · rw [if_pos hunlink]
        have hkept : Holds 0 []
            ((c.emit (.opened fd)).upd fun r => { r with postDataFd := fd }) :=
          hopened.keepPost hfd hpost rfl (Nat.zero_le _) rfl rfl
        rw [if_neg hfd]
        by_cases hfcntl : env.fcntlOk = true
        · rw [if_pos hfcntl]
          exact ⟨hkept, fun _ => Or.inl ⟨hmethod, hdata, hfd⟩⟩
        · rw [if_neg hfcntl]
          have hout := sendRError_outputs cfg env
            ((c.emit (.opened fd)).upd fun r => { r with postDataFd := fd })
          have hfield : (sendRError cfg env ((c.emit (.opened fd)).upd fun r =>
              { r with postDataFd := fd })).req.postDataFd = fd := hout.postDataFd
          have hclosed := (hkept.outputs hdone hout).closePost (by rw [hfield]; exact hfd)
          rw [hfield] at hclosed
          exact HeaderHolds.ended hclosed
      · rw [if_neg hunlink, if_pos rfl]
        exact HeaderHolds.ended
          ((hnone hopened.closed hpost).outputs hdone (sendRError_outputs cfg env _))

lemma nameAllowed_of_translated {r : Request} (hname : ∃ path, r.pathname = some path)
    {cfg : Config} (hdenied : accessDenied cfg r = false) : NameAllowed cfg r := by
  obtain ⟨path, hpath⟩ := hname
  rintro ⟨hcontrol, hdeny⟩
  rw [hpath, Option.getD_some] at hdeny
  rw [accessDenied, hpath, hcontrol, Option.map_some, hdeny] at hdenied
  cases hdenied

/-- `process_header_end`. -/
lemma processHeaderEnd_holds (cfg : Config) {env : Env} (hfresh : env.Fresh [0])
    (h : Holds 0 [] c) (hdata : c.req.dataFd = 0) (hpost : c.req.postDataFd = 0) :
    HeaderHolds (processHeaderEnd cfg env c) := by
  have hdone : 0 ≤ ReqStatus.done.code := Nat.zero_le _
  have hdec {r : Request} (hr : Decodes c.req r) :
      Holds 0 [] { c.emit .headerEnd with req := r } ∧ r.dataFd = 0 ∧ r.postDataFd = 0 := by
    obtain ⟨_, _, _, rfl⟩ := hr
    have hend : Holds 0 [] (c.emit .headerEnd) := h.emit rfl
    exact ⟨hend, hdata, hpost⟩
  rcases processHeaderEnd_cases cfg env c with ⟨-, r, hr, heq | heq⟩ | ⟨r, -, hr, heq⟩
  · rw [heq]
    exact HeaderHolds.ended ((hdec hr).1.outputs hdone (sendRError_outputs cfg env _))
  · rw [heq]
    exact HeaderHolds.ended ((hdec hr).1.outputs hdone (sendRBadRequest_outputs cfg env _))
  rw [heq]
  obtain ⟨hd, hdata, hpost⟩ := hdec hr
  have hfields : ({ c.emit .headerEnd with req := r } : Conn).req = r := rfl
  generalize ({ c.emit .headerEnd with req := r } : Conn) = d at hd hfields ⊢
  subst hfields
  have htrans : Holds 0 [] (translated cfg env d) ∧ (translated cfg env d).req.dataFd = 0 ∧
      (translated cfg env d).req.postDataFd = 0 ∧
      (translated cfg env d).req.method = d.req.method := by
    obtain ⟨_, _, _, _, _, h⟩ := translateUri_translates cfg env env.scriptBuf d.req
    rw [translated, h]
    exact ⟨hd, hdata, hpost, rfl⟩
  obtain ⟨htrans, hdata, hpost, hmethod⟩ := htrans
  have hidle (hne : d.req.method ≠ .post) : Idle 0 0 [] (translated cfg env d) :=
    ⟨htrans, hdata, hpost, fun heq => absurd (hmethod.symm.trans heq) hne⟩
  rcases translateRequest_cases cfg env d with ⟨-, h⟩ | ⟨-, h⟩ | ⟨hret, hdenied, ⟨hp, h⟩
    | ⟨hne, -, h⟩ | ⟨hne, -, h⟩⟩
  · rw [h]
    have hpages := htrans.outputs hdone (sendPages_outputs cfg env
      (translateUri cfg env env.scriptBuf d.req).page _)
    exact HeaderHolds.ended hpages
  · rw [h]
    exact HeaderHolds.ended (htrans.outputs hdone (sendRForbidden_outputs cfg env _))
  · rw [h]
    exact acceptPost_holds cfg hfresh htrans (hmethod.trans hp) hdata hpost
  · rw [h]
    refine HeaderHolds.of_starts (initCgi_holds (Nat.zero_le _) cfg hfresh (hidle hne)) ?_
    rw [(initCgi_leads cfg env _).moves.method, hmethod]
    exact hne
  · rw [h]
    have hname : NameAllowed cfg (translated cfg env d).req :=
      nameAllowed_of_translated (translateUri_namesFile cfg env env.scriptBuf d.req hret).2 hdenied
    have hwrite : Idle ReqStatus.write.code 0 [] ((translated cfg env d).setStatus .write) :=
      ⟨⟨le_rfl, htrans.2⟩, (hidle hne).2⟩
    have hget := initGet_holds le_rfl cfg hfresh
      (c := (translated cfg env d).setStatus .write) hname hwrite
    refine ⟨hget.mono (Nat.zero_le _), fun _ => Or.inr ⟨?_, hget.1⟩⟩
    rw [(initGet_moves cfg env _).method]
    exact fun heq => hne (hmethod.symm.trans heq)

/-! ### Visits -/

/-- A request between two visits: while its header is read it holds nothing, unless it is an old
`POST`, and while its body is stored it has its file at hand. -/
structure Settled (c : Conn) : Prop where
  header : InHeader c → c.req.dataFd = 0 ∧ (c.req.postDataFd ≠ 0 → c.req.OldPost)
  body : Busy c → c.req.status.code < ReqStatus.write.code →
    c.req.dataFd = 0 ∧ c.req.postDataFd ≠ 0

namespace Settled

lemma of_write (h : ReqStatus.write.code ≤ c.req.status.code) : Settled c := by
  have hbody : ReqStatus.bodyRead.code ≤ ReqStatus.write.code := by decide
  exact ⟨fun hin => absurd hin (not_lt.mpr (hbody.trans h)), fun _ hlt => absurd hlt (not_lt.mpr h)⟩

lemma of_header (hin : InHeader c) (hdata : c.req.dataFd = 0)
    (hpost : c.req.postDataFd ≠ 0 → c.req.OldPost) : Settled c :=
  ⟨fun _ => ⟨hdata, hpost⟩, fun hbusy => absurd hin (not_lt.mpr hbusy)⟩

lemma of_body (hbusy : Busy c) (hdata : c.req.dataFd = 0) (hpost : c.req.postDataFd ≠ 0) :
    Settled c :=
  ⟨fun hin => absurd hin (not_lt.mpr hbusy), fun _ _ => ⟨hdata, hpost⟩⟩

lemma outputs (h : Settled c) (hout : Outputs c d) : Settled d := by
  have hdone : ReqStatus.write.code ≤ ReqStatus.done.code := by decide
  rcases hout.status with hsame | hlate
  · refine ⟨fun hin => ?_, fun hbusy hlt => ?_⟩
    · rw [InHeader, hsame] at hin
      rw [hout.dataFd, hout.postDataFd, hout.oldPost]
      exact h.header hin
    · rw [Busy, hsame] at hbusy
      rw [hsame] at hlt
      rw [hout.dataFd, hout.postDataFd]
      exact h.body hbusy hlt
  · exact of_write (hdone.trans hlate)

end Settled

/-- What a handler leaves: a request that does not end is settled. -/
def VisitHolds (res : ℤ × Conn) : Prop :=
  Holds 0 [] res.2 ∧ (res.1 ≠ 0 → Settled res.2)

lemma VisitHolds.ended (h : Holds 0 [] c) : VisitHolds (0, c) :=
  ⟨h, fun hne => absurd rfl hne⟩

lemma VisitHolds.of_write {res : ℤ × Conn} (h : Holds ReqStatus.write.code [] res.2) :
    VisitHolds res := ⟨h.mono (Nat.zero_le _), fun _ => Settled.of_write h.1⟩

lemma Parses.holds (h : Parses c d) (hc : Holds lo tmp c) : Holds 0 tmp d := by
  obtain ⟨_, _, _, _, _, ⟨_, _, _, _, _, _, _, _, _, _, _, _, _, _, _, _, rfl⟩, rfl⟩ := h
  exact ⟨Nat.zero_le _, hc.2⟩

lemma Parses.fds (h : Parses c d) :
    d.req.dataFd = c.req.dataFd ∧ d.req.postDataFd = c.req.postDataFd := by
  obtain ⟨_, _, _, _, _, ⟨_, _, _, _, _, _, _, _, _, _, _, _, _, _, _, _, rfl⟩, rfl⟩ := h
  exact ⟨rfl, rfl⟩

/-- Behind the end of a line the status is as it was. -/
lemma headerLineEnd_status {cfg : Config} {env : Env} (h : headerLineEnd cfg env c = .more d) :
    d.req.status = c.req.status := by
  unfold headerLineEnd at h
  extract_lets e at h
  have he : e.req.status = c.req.status := rfl
  have hopt := processOptionLine_parses cfg env e
  have hlog := processLogline_parses cfg env e
  clear_value e
  generalize processOptionLine cfg env e = opt at hopt h
  generalize processLogline cfg env e = log at hlog h
  obtain ⟨ret, f⟩ := opt
  obtain ⟨ret', f'⟩ := log
  have hnext {f : Conn} {ok : Bool} (hf : ParsesOr cfg env e (ok, f)) (hok : ok = true)
      (hd : nextLine f = d) : d.req.status = c.req.status := by
    rcases hf with ⟨-, hline⟩ | ⟨hfalse, -⟩
    · rw [← hd]
      exact hline.status.trans he
    · exact absurd (hok.symm.trans hfalse) (by decide)
  split_ifs at h with hlong hline
  · cases ret with
    | true => exact hnext hopt rfl (HeaderStep.more.inj h)
    | false => cases h
  · cases ret' with
    | true =>
        dsimp only at h
        split_ifs at h
        exact hnext hlog rfl (HeaderStep.more.inj h)
    | false => cases h

/-- A byte behind which the loop of `read_header` goes on. -/
lemma headerByte_inHeader {cfg : Config} {env : Env} (hin : InHeader c)
    (h : headerByte cfg env c = .more d) : InHeader d := by
  have hline : ReqStatus.oneLf.code < ReqStatus.bodyRead.code := by decide
  unfold headerByte at h
  extract_lets uc e at h
  have hstatus : e.req.status = headerStatus c.req.status uc := rfl
  clear_value e
  by_cases hillegal : illegalByte uc = true
  · rw [if_pos hillegal] at h
    cases h
  rw [if_neg hillegal] at h
  by_cases hlf : e.req.status = .oneLf
  · rw [if_pos hlf] at h
    rw [InHeader, headerLineEnd_status h, hlf]
    exact hline
  rw [if_neg hlf] at h
  by_cases hblank : e.req.status = .bodyRead
  · rw [if_pos hblank] at h
    cases h
  · rw [if_neg hblank] at h
    obtain rfl := HeaderStep.more.inj h
    rw [InHeader, hstatus]
    rw [hstatus] at hblank
    exact headerStatus_code uc hin hblank

lemma readHeaderLoop_inHeader {cfg : Config} {env : Env} (k : ℕ) (hin : InHeader c)
    (h : readHeaderLoop cfg env k c = .more d) : InHeader d := by
  induction k generalizing c with
  | zero =>
      obtain rfl := HeaderStep.more.inj h
      exact hin
  | succ k ih =>
      rw [readHeaderLoop] at h
      cases hres : headerByte cfg env c with
      | more e =>
          rw [hres] at h
          exact ih (headerByte_inHeader hin hres) h
      | ret value e =>
          rw [hres] at h
          cases h
      | loglineEnd e =>
          rw [hres] at h
          cases h
      | blankLine e =>
          rw [hres] at h
          cases h

/-- The request line of the old protocol ends the header at once. -/
lemma loglineEnd_holds (cfg : Config) {env : Env} (hfresh : env.Fresh [0])
    (hold : d.req.httpVersion = .http09) (h : Holds 0 [] d) (hdata : d.req.dataFd = 0)
    (hpost : d.req.postDataFd = 0) : VisitHolds (processHeaderEnd cfg env d) := by
  obtain ⟨hholds, hgoes⟩ := processHeaderEnd_holds cfg hfresh h hdata hpost
  have hends : EndsHeader d (processHeaderEnd cfg env d) :=
    processHeaderEnd_ends hold (Quiet.refl d)
  refine ⟨hholds, fun hne => ?_⟩
  rcases hgoes hne with ⟨-, hdata', hpost'⟩ | ⟨-, hwrite⟩
  · rcases hends.goes with hzero | hbusy | hold'
    · exact absurd hzero hne
    · exact Settled.of_body hbusy hdata' hpost'
    · by_cases hin : InHeader (processHeaderEnd cfg env d).2
      · exact Settled.of_header hin hdata' fun _ => hold'
      · exact Settled.of_body (not_lt.mp hin) hdata' hpost'
  · exact Settled.of_write hwrite

lemma headerPost_holds (cfg : Config) (env : Env) (h : Holds 0 [] c) (hdata : c.req.dataFd = 0)
    (hpost : c.req.postDataFd ≠ 0) : VisitHolds (headerPost cfg env c) := by
  have hdone : 0 ≤ ReqStatus.done.code := Nat.zero_le _
  have hbody : ReqStatus.bodyRead.code ≤ ReqStatus.bodyWrite.code := by decide
  unfold headerPost
  extract_lets e
  have he : Holds 0 [] e := ⟨Nat.zero_le _, h.2⟩
  have hstatus : e.req.status = .bodyWrite := rfl
  have hdata' : e.req.dataFd = 0 := hdata
  have hpost' : e.req.postDataFd ≠ 0 := hpost
  clear_value e
  have hbad := he.outputs hdone (sendRBadRequest_outputs cfg env e)
  cases e.req.contentLength with
  | none => exact VisitHolds.ended hbad
  | some off =>
      dsimp only
      by_cases hneg : boaAtoi (e.req.streamString off) < 0
      · rw [if_pos hneg]
        exact VisitHolds.ended hbad
      rw [if_neg hneg]
      split_ifs
      · exact VisitHolds.ended hbad
      · refine ⟨he, fun _ => Settled.of_body ?_ hdata' hpost'⟩
        show ReqStatus.bodyRead.code ≤ e.req.status.code
        rw [hstatus]
        exact hbody

/-- `read_header` at the blank line. -/
lemma headerBlankLine_holds (cfg : Config) {env : Env} (hfresh : env.Fresh [0])
    (h : Holds 0 [] c) (hdata : c.req.dataFd = 0) (hpost : c.req.postDataFd = 0) :
    VisitHolds (headerBlankLine cfg env c) := by
  have hend := processHeaderEnd_holds cfg hfresh h hdata hpost
  rw [headerBlankLine]
  generalize processHeaderEnd cfg env c = res at hend ⊢
  obtain ⟨retval, d⟩ := res
  obtain ⟨hholds, hgoes⟩ := hend
  dsimp only at hholds hgoes ⊢
  by_cases hgo : retval ≠ 0 ∧ d.req.method = .post
  · rw [if_pos hgo]
    rcases hgoes hgo.1 with ⟨-, hdata', hpost'⟩ | ⟨hne, -⟩
    · exact headerPost_holds cfg env hholds hdata' hpost'
    · exact absurd hgo.2 hne
  · rw [if_neg hgo]
    refine ⟨hholds, fun hne => ?_⟩
    rcases hgoes hne with ⟨hmethod, -⟩ | ⟨-, hwrite⟩
    · exact absurd ⟨hne, hmethod⟩ hgo
    · exact Settled.of_write hwrite

/-- **`read_header`** opens nothing for an old `POST`, which has its file already, unless it comes
to a blank line. -/
lemma readHeader_holds (cfg : Config) {env : Env} (hfresh : env.Fresh [0]) (h : Holds 0 [] c)
    (hs : Settled c) (hin : InHeader c) (hback : c.req.OldPost → ¬BlankLine cfg env c) :
    VisitHolds (readHeader cfg env c) := by
  have hdone : 0 ≤ ReqStatus.done.code := Nat.zero_le _
  obtain ⟨hdata, hpost⟩ := hs.header hin
  have hnone (hnot : ¬c.req.OldPost) : c.req.postDataFd = 0 :=
    not_not.mp fun hne => hnot (hpost hne)
  have hparses := readHeaderLoop_parses cfg env (c.req.clientStreamPos - c.req.parsePos) c
  have hfirst := readHeaderLoop_first cfg env (c.req.clientStreamPos - c.req.parsePos) c
  rw [readHeader]
  cases hres : readHeaderLoop cfg env (c.req.clientStreamPos - c.req.parsePos) c with
  | ret value d =>
      rw [hres] at hparses
      obtain ⟨rfl, e, hp, hrefused⟩ := hparses
      exact VisitHolds.ended ((hp.holds h).outputs hdone hrefused.outputs)
  | loglineEnd d =>
      rw [hres] at hparses hfirst
      have hp : Parses c d := hparses
      exact loglineEnd_holds cfg hfresh hfirst.2 (hp.holds h) (hp.fds.1.trans hdata)
        (hp.fds.2.trans (hnone hfirst.1))
  | blankLine d =>
      rw [hres] at hparses
      have hp : Parses c d := hparses
      have hnot : ¬c.req.OldPost := fun hold => hback hold ⟨d, hres⟩
      exact headerBlankLine_holds cfg hfresh (hp.holds h) (hp.fds.1.trans hdata)
        (hp.fds.2.trans (hnone hnot))
  | more d =>
      have hdin := readHeaderLoop_inHeader _ hin hres
      rw [hres] at hparses hfirst
      have hp : Parses c d := hparses
      have hold : d.req.OldPost ↔ c.req.OldPost := hfirst
      have hd := hp.holds h
      have hsettled : Settled d := Settled.of_header hdin (hp.fds.1.trans hdata) fun hne =>
        hold.mpr (hpost (hp.fds.2 ▸ hne))
      have hcode : d.req.status.code < ReqStatus.bodyRead.code := hdin
      dsimp only
      rw [if_pos hcode]
      rcases readHeaderMore_cases env d with ⟨-, heq⟩
        | ⟨-, ⟨-, heq⟩ | ⟨-, heq⟩ | ⟨-, heq⟩ | ⟨b, bs, -, heq⟩⟩
      · rw [heq]
        have hset : Holds 0 [] (d.setResponse 400) := hd
        exact VisitHolds.ended (hset.outputs hdone (die_outputs _))
      · rw [heq]
        exact ⟨hd, fun _ => hsettled⟩
      · rw [heq]
        exact ⟨hd, fun _ => hsettled⟩
      · rw [heq]
        exact VisitHolds.ended hd
      · rw [heq]
        exact ⟨hd, fun _ => ⟨hsettled.header, hsettled.body⟩⟩

lemma handleStatus_header (cfg : Config) (env : Env) (hin : InHeader c) :
    handleStatus cfg env c = readHeader cfg env c := by
  rw [InHeader] at hin
  rw [handleStatus]
  cases hstatus : c.req.status with
  | readHeader | oneCr | oneLf | twoCr => rfl
  | _ =>
      rw [hstatus] at hin
      exact absurd hin (by decide)

/-- The handlers behind the header. -/
lemma handleStatus_holds (cfg : Config) {env : Env} (hfresh : env.Fresh [c.req.postDataFd])
    (h : Holds 0 [] c) (hs : Settled c) (hbusy : Busy c) :
    VisitHolds (handleStatus cfg env c) := by
  have hidle (hlt : c.req.status.code < ReqStatus.write.code) :
      Idle ReqStatus.bodyRead.code c.req.postDataFd [] c ∧ c.req.postDataFd ≠ 0 := by
    obtain ⟨hdata, hpost⟩ := hs.body hbusy hlt
    exact ⟨⟨⟨hbusy, h.2⟩, hdata, rfl, fun _ => hpost⟩, hpost⟩
  have hbody {res : ℤ × Conn} (hres : Idle ReqStatus.bodyRead.code c.req.postDataFd [] res.2)
      (hpost : c.req.postDataFd ≠ 0) : VisitHolds res :=
    ⟨hres.holds.mono (Nat.zero_le _),
      fun _ => Settled.of_body hres.1.1 hres.2.1 (hres.2.2.1.symm ▸ hpost)⟩
  have hwrite {s : ReqStatus} (hstatus : c.req.status = s)
      (hle : ReqStatus.write.code ≤ s.code) : Holds ReqStatus.write.code [] c :=
    ⟨hstatus ▸ hle, h.2⟩
  have hend (hlate : Holds ReqStatus.write.code [] c) : VisitHolds
      (0, ((c.upd fun r => { r with bufferEnd := 0 }).emit .dropped).squashKa) := by
    have hclear : Holds 0 [] (c.upd fun r => { r with bufferEnd := 0 }) := h
    have hdropped : Holds 0 []
        ((c.upd fun r => { r with bufferEnd := 0 }).emit .dropped).squashKa := hclear.emit rfl
    exact VisitHolds.ended hdropped
  rw [handleStatus]
  cases hstatus : c.req.status with
  | readHeader | oneCr | oneLf | twoCr =>
      rw [Busy, hstatus] at hbusy
      exact absurd hbusy (by decide)
  | bodyRead =>
      obtain ⟨hi, hpost⟩ := hidle (hstatus ▸ by decide)
      exact hbody (readBody_holds cfg env hi) hpost
  | bodyWrite =>
      obtain ⟨hi, hpost⟩ := hidle (hstatus ▸ by decide)
      rcases writeBody_holds cfg hfresh hi with hstarts | hkept
      · exact ⟨hstarts.1.mono (Nat.zero_le _), fun hne => Settled.of_write (hstarts.2 hne)⟩
      · exact hbody hkept hpost
  | write => exact VisitHolds.of_write (processGet_holds le_rfl cfg env (hwrite hstatus le_rfl))
  | pipeRead =>
      exact VisitHolds.of_write (readFromPipe_holds le_rfl cfg env (hwrite hstatus (by decide)))
  | pipeWrite =>
      exact VisitHolds.of_write (writeFromPipe_holds le_rfl (hwrite hstatus (by decide)))
  | ioShuffle =>
      have hc := hwrite hstatus (by decide)
      exact VisitHolds.of_write (Holds.ite (ioShuffleSendfile_holds le_rfl cfg hc)
        (ioShuffle_holds le_rfl cfg env hc))
  | done => exact VisitHolds.of_write (processDone_holds le_rfl (hwrite hstatus (by decide)))
  | timedOut => exact hend (hwrite hstatus (by decide))
  | dead => exact hend (hwrite hstatus (by decide))

/-- **A visit** of `process_requests`, up to the switch on the return value. -/
lemma processRequest_holds (cfg : Config) {env : Env}
    (hfresh : env.Fresh [c.req.dataFd, c.req.postDataFd]) (h : Holds 0 [] c) (hs : Settled c)
    (hback : ¬ComesBack cfg env c) : VisitHolds (processRequest cfg env (c.visited env)) := by
  have hdone : 0 ≤ ReqStatus.done.code := Nat.zero_le _
  have hout := flushFirst_outputs (c.visited env)
  have hvisited : Holds 0 [] (c.visited env) := h
  have hsettled : Settled (c.visited env) := ⟨hs.header, hs.body⟩
  have hflush := hvisited.outputs hdone hout
  have hflushs := hsettled.outputs hout
  have hdata : (flushFirst (c.visited env)).2.req.dataFd = c.req.dataFd := hout.dataFd
  have hpost : (flushFirst (c.visited env)).2.req.postDataFd = c.req.postDataFd := hout.postDataFd
  have hold : (flushFirst (c.visited env)).2.req.OldPost ↔ c.req.OldPost := hout.oldPost
  have hres : VisitHolds (if (flushFirst (c.visited env)).1 = 1 then
      handleStatus cfg env (flushFirst (c.visited env)).2 else flushFirst (c.visited env)) := by
    by_cases hone : (flushFirst (c.visited env)).1 = 1
    swap
    · rw [if_neg hone]
      exact ⟨hflush, fun _ => hflushs⟩
    rw [if_pos hone]
    by_cases hin : InHeader (flushFirst (c.visited env)).2
    · rw [handleStatus_header cfg env hin]
      have hzero : c.req.dataFd = 0 := hdata ▸ (hflushs.header hin).1
      have hfresh' : env.Fresh [0] := hfresh.mono (by simp [hzero])
      refine readHeader_holds cfg hfresh' hflush hflushs hin fun hpost' hblank => ?_
      exact hback ⟨hold.mp hpost', hone, not_le.mpr hin, hblank⟩
    · have hfresh' : env.Fresh [(flushFirst (c.visited env)).2.req.postDataFd] :=
        hfresh.mono (by simp [hpost])
      exact handleStatus_holds cfg hfresh' hflush hflushs (not_lt.mp hin)
  rw [processRequest]
  generalize (if (flushFirst (c.visited env)).1 = 1 then
      handleStatus cfg env (flushFirst (c.visited env)).2 else flushFirst (c.visited env)) = res
    at hres ⊢
  split_ifs
  · exact ⟨hres.1, fun hne => ⟨(hres.2 hne).header, (hres.2 hne).body⟩⟩
  · exact hres

/-! ### The end of a request -/

/-- The fields are closed at the end. -/
lemma Holds.closing (h : Holds lo [] c) :
    Balances (descriptorOps (c.trace ++ c.req.closing)) [] := by
  have hops : descriptorOps c.req.closing =
      (fdList c.req.dataFd c.req.postDataFd).map Ledger.Op.release := by
    rw [Request.closing, fdList]
    split_ifs <;> rfl
  rw [descriptorOps_append, hops]
  have hbal := h.2
  generalize descriptorOps c.trace = ops at hbal ⊢
  rw [List.nil_append] at hbal
  generalize fdList c.req.dataFd c.req.postDataFd = l at hbal ⊢
  induction l generalizing ops with
  | nil =>
      rw [List.map_nil, List.append_nil]
      exact hbal
  | cons a l ih =>
      rw [List.map_cons, ← List.singleton_append, ← List.append_assoc]
      exact ih _ hbal.release

/-- No request has ended between the two states. -/
def Goes (c d : Conn) : Prop :=
  d.free = c.free ∧ ∃ es, d.trace = c.trace ++ es ∧
    ∀ recycled unsent status, Event.freed recycled unsent status ∉ es

lemma Goes.of_quiet (h : Quiet c d) : Goes c d := by
  obtain ⟨es, htrace, hes⟩ := h.events
  refine ⟨h.free, es, htrace, fun recycled unsent status hmem => ?_⟩
  exact absurd (hes _ hmem) (by simp [Event.isMark])

lemma Goes.trans {e : Conn} (h : Goes c d) (h' : Goes d e) : Goes c e := by
  obtain ⟨hfree, es, htrace, hes⟩ := h
  obtain ⟨hfree', es', htrace', hes'⟩ := h'
  refine ⟨hfree'.trans hfree, es ++ es', by rw [htrace', htrace, List.append_assoc], ?_⟩
  intro recycled unsent status hmem
  exact (List.mem_append.mp hmem).elim (hes recycled unsent status) (hes' recycled unsent status)

lemma processRequest_goes (cfg : Config) (env : Env) (c : Conn) :
    Goes c (processRequest cfg env (c.visited env)).2 := by
  rcases processRequest_ends cfg env c with ⟨-, hvisit⟩ | ⟨-, -, hends⟩
  · exact Goes.of_quiet hvisit.quiet
  · obtain ⟨d, hfront, hback⟩ := hends.ends
    have hemit : Goes d (d.emit .headerEnd) := ⟨rfl, [.headerEnd], rfl, by simp⟩
    exact ((Goes.of_quiet hfront).trans hemit).trans (Goes.of_quiet hback)

/-- Whenever a request has ended, all that the server has opened for the connection is closed. -/
def EndsClosed (t : List Event) : Prop :=
  ∀ front back recycled unsent status, t = front ++ Event.freed recycled unsent status :: back →
    Balances (descriptorOps front) []

/-- A record that goes on without an end. -/
lemma EndsClosed.goes (h : EndsClosed c.trace) (hgo : Goes c d) : EndsClosed d.trace := by
  obtain ⟨-, es, htrace, hes⟩ := hgo
  intro front back recycled unsent status heq
  have hnot := hes recycled unsent status
  rw [htrace, List.append_eq_append_iff] at heq
  rcases heq with ⟨a, -, rfl⟩ | ⟨b, hc, hb⟩
  · exact absurd (List.mem_append_right a List.mem_cons_self) hnot
  · cases b with
    | nil =>
        rw [List.nil_append] at hb
        exact absurd (hb ▸ List.mem_cons_self) hnot
    | cons e b =>
        obtain ⟨rfl, -⟩ := List.cons_eq_cons.mp hb
        exact h front b recycled unsent status hc

/-- A record that goes on with the end of a request. -/
lemma EndsClosed.concat {t : List Event} (h : EndsClosed t) (hbal : Balances (descriptorOps t) [])
    (recycled : Bool) (unsent : Bytes) (status : ReqStatus) :
    EndsClosed (t ++ [.freed recycled unsent status]) := by
  intro front back recycled' unsent' status' heq
  rcases List.eq_nil_or_concat back with rfl | ⟨back, e, rfl⟩
  · obtain ⟨rfl, -⟩ := List.append_inj' heq rfl
    exact hbal
  · rw [List.concat_eq_append, ← List.cons_append, ← List.append_assoc] at heq
    obtain ⟨rfl, -⟩ := List.append_inj' heq rfl
    exact h front back recycled' unsent' status' rfl

/-- The account of a connection between two steps. -/
structure Accounted (c : Conn) : Prop where
  ends : EndsClosed c.trace
  free : c.free = true → Balances (descriptorOps c.trace) []
  used : c.free = false → Holds 0 [] c ∧ Settled c

/-- What `process_requests` makes of a request that goes on. -/
lemma Accounted.of_used (hends : EndsClosed c.trace) (hfree : c.free = false) (h : Holds 0 [] c)
    (hs : Settled c) : Accounted c :=
  ⟨hends, fun htrue => absurd (hfree.symm.trans htrue) (by decide), fun _ => ⟨h, hs⟩⟩

/-- `free_request` behind its flush. -/
lemma releaseRequest_holds (cfg : Config) (hends : EndsClosed c.trace) (hfree : c.free = false)
    (h : Holds 0 [] c) : Accounted (releaseRequest cfg c) := by
  have hclosing := h.closing
  have hgo : Goes c { c with trace := c.trace ++ c.req.closing } := by
    refine ⟨rfl, c.req.closing, rfl, fun recycled unsent status => ?_⟩
    rw [Request.closing]
    split_ifs <;> simp
  have hends' := (hends.goes hgo).concat hclosing
  have hbal (recycled : Bool) : Balances (descriptorOps
      (c.trace ++ c.req.closing ++ [.freed recycled c.req.pending c.req.status])) [] := by
    rw [descriptorOps_append, descriptorOps_eq_nil (List.forall_mem_singleton.mpr rfl),
      List.append_nil]
    exact hclosing
  rcases releaseRequest_cases cfg c with ⟨k, -, heq⟩ | ⟨k, -, heq⟩
  · rw [heq]
    refine Accounted.of_used (hends' _ _ _) hfree ⟨Nat.zero_le _, hbal true⟩ ?_
    exact Settled.of_header (by decide : ReqStatus.readHeader.code < ReqStatus.bodyRead.code) rfl
      fun hne => absurd rfl hne
  · rw [heq]
    exact ⟨hends' _ _ _, fun _ => hbal false, fun hfalse => by cases hfalse⟩

/-- `free_request`. -/
lemma freeRequest_holds (cfg : Config) (hends : EndsClosed c.trace) (hfree : c.free = false)
    (h : Holds 0 [] c) : Accounted (freeRequest cfg c) := by
  obtain ⟨d, hout, hcase⟩ := freeRequest_cases cfg c
  have hgo := Goes.of_quiet (Quiet.of_outputs hout)
  have hd := h.outputs (Nat.zero_le _) hout
  rcases hcase with ⟨hdone, heq⟩ | heq
  · have hwrite : ReqStatus.write.code ≤ ReqStatus.done.code := by decide
    rw [heq]
    exact Accounted.of_used (hends.goes hgo) (hgo.1.trans hfree) hd
      (Settled.of_write (hwrite.trans hdone))
  · rw [heq]
    exact releaseRequest_holds cfg (hends.goes hgo) (hgo.1.trans hfree) hd

/-! ### Runs -/

/-- The kernel gives unused descriptors, and no old `POST` comes back. -/
def GivesUnused (cfg : Config) (c : Conn) (i : Input) : Prop :=
  NeverBack cfg c i ∧
    ∀ env, i = .visit env → c.free = false → env.Fresh [c.req.dataFd, c.req.postDataFd]

/-- **A step** keeps the account. -/
lemma Accounted.step (h : Accounted c) {cfg : Config} {i : Input} (hi : GivesUnused cfg c i) :
    Accounted (step cfg c i) := by
  obtain ⟨hback, hfresh⟩ := hi
  have hlate {s : ReqStatus} (hs : ReqStatus.write.code ≤ s.code) (hfree : c.free = false) :
      Accounted (c.setStatus s) :=
    Accounted.of_used h.ends hfree ⟨Nat.zero_le _, (h.used hfree).1.2⟩ (Settled.of_write hs)
  cases i with
  | visit env =>
      rw [Yabwf.step]
      cases hfree : c.free with
      | true => exact h
      | false =>
          obtain ⟨hholds, hsettled⟩ := h.used hfree
          have hvisit := processRequest_holds cfg (hfresh env rfl hfree) hholds hsettled
            (hback hfree)
          have hgo := processRequest_goes cfg env c
          rw [if_neg Bool.false_ne_true, visit_eq_finishVisit]
          generalize processRequest cfg env (c.visited env) = res at hvisit hgo ⊢
          have hends := h.ends.goes hgo
          have hfree' := hgo.1.trans hfree
          rw [finishVisit]
          by_cases hzero : res.1 = 0
          · rw [if_pos hzero]
            exact freeRequest_holds cfg hends hfree' hvisit.1
          rw [if_neg hzero]
          split_ifs
          · exact Accounted.of_used hends hfree' hvisit.1 (hvisit.2 hzero)
          · have hdie := die_outputs res.2
            have hgo' := Goes.of_quiet (Quiet.of_outputs hdie)
            exact Accounted.of_used (hends.goes hgo') (hgo'.1.trans hfree')
              (hvisit.1.outputs (Nat.zero_le _) hdie) ((hvisit.2 hzero).outputs hdie)
  | expire timedOut =>
      rw [Yabwf.step]
      cases hfree : c.free with
      | true => exact h
      | false =>
          cases timedOut with
          | true => exact hlate (by decide) hfree
          | false =>
              obtain ⟨hholds, hsettled⟩ := h.used hfree
              have hdie := die_outputs c
              have hgo := Goes.of_quiet (Quiet.of_outputs hdie)
              exact Accounted.of_used (h.ends.goes hgo) (hgo.1.trans hfree)
                (hholds.outputs (Nat.zero_le _) hdie) (hsettled.outputs hdie)
  | accept env fd localIp remoteIp port tooMany =>
      rw [Yabwf.step]
      cases hfree : c.free with
      | false => exact h
      | true =>
          have hbal := h.free hfree
          have hends := h.ends
          show Accounted (getRequest cfg env fd localIp remoteIp port tooMany c)
          unfold getRequest
          extract_lets d e
          have he : Holds 0 [] e := ⟨Nat.zero_le _, hbal⟩
          have hes : Settled e := Settled.of_header
            (by decide : ReqStatus.readHeader.code < ReqStatus.bodyRead.code) rfl
            fun hne => absurd rfl hne
          have hefree : e.free = false := rfl
          have hetrace : e.trace = c.trace := rfl
          clear_value e
          rw [← hetrace] at hends
          split_ifs
          · have hold : Holds 0 [] (e.upd fun r =>
                { r with httpVersion := .http10, method := .get }) := he
            have hout := sendRServiceUnavailable_outputs cfg env (e.upd fun r =>
              { r with httpVersion := .http10, method := .get })
            have hgo := Goes.of_quiet (Quiet.of_outputs hout)
            have hends' : EndsClosed (e.upd fun r =>
              { r with httpVersion := .http10, method := .get }).trace := hends
            have hpage := hold.outputs (Nat.zero_le _) hout
            generalize sendRServiceUnavailable cfg env _ = f at hpage hgo ⊢
            have hwrite : ReqStatus.write.code ≤ ReqStatus.done.code := by decide
            exact Accounted.of_used (hends'.goes hgo) (hgo.1.trans hefree)
              ⟨Nat.zero_le _, hpage.2⟩ (Settled.of_write hwrite)
          · exact Accounted.of_used hends hefree he hes

/-- **No descriptor is leaked or closed twice.** In every run in which the kernel gives descriptors
that are not in use, and no `POST` of the old protocol comes to a blank line, each descriptor that
the server has opened for the connection and not closed is in `data_fd` or `post_data_fd`, and by
the time a request ends all of them are closed. -/
theorem descriptors_closed (cfg : Config) (is : List Input)
    (hlegal : Run.Allowed (step cfg) (GivesUnused cfg) Conn.initial is) :
    (∃ l, Ledger.held (descriptorOps (Run.runs (step cfg) Conn.initial is).trace) = some l ∧
      l.Perm (if (Run.runs (step cfg) Conn.initial is).free then [] else
        fdList (Run.runs (step cfg) Conn.initial is).req.dataFd
          (Run.runs (step cfg) Conn.initial is).req.postDataFd)) ∧
    ∀ front back recycled unsent status,
      (Run.runs (step cfg) Conn.initial is).trace
          = front ++ Event.freed recycled unsent status :: back →
        Ledger.held (descriptorOps front) = some [] := by
  have hinit : Accounted Conn.initial := by
    refine ⟨fun front back recycled unsent status heq => ?_, fun _ => Balances.nil, fun hf => ?_⟩
    · exact absurd heq (by simp [Conn.initial])
    · cases hf
  have hrun : Accounted (Run.runs (step cfg) Conn.initial is) :=
    Run.runs_invariant (fun _ _ hc hi => hc.step hi) is _ hinit hlegal
  generalize Run.runs (step cfg) Conn.initial is = c at hrun ⊢
  refine ⟨?_, fun front back recycled unsent status heq => ?_⟩
  · cases hfree : c.free with
    | true => exact hrun.free hfree
    | false => exact (hrun.used hfree).1.2
  · obtain ⟨l, hheld, hperm⟩ := hrun.ends front back recycled unsent status heq
    rw [hheld, List.Perm.eq_nil hperm]

/-- A server of files. -/
def fileServer : Config := { documentRoot := some (str "/w"), defaultType := str "text/plain" }

/-- A file is opened for a request, which times out. -/
def fileInputs : List Input :=
  [.accept {} 4 [] [] 0 false, .visit { sockRead := .data (str "GET /f HTTP/1.0\n\n") },
    .visit { openFile := fun _ => .ok 7 { kind := .regular, size := 3 } fun _ => 65 },
    .expire true, .visit {}]

/-- A kernel that gives nothing. -/
lemma fresh_of_nothing {env : Env} (hfile : ∀ path, env.openFile path = .enoent)
    (hcache : env.reopenCache = .enoent) (hpipe : env.pipe = none) (htmp : env.mkstemp = none)
    (used : List ℕ) : env.Fresh used where
  file path fd st contents h := by
    rw [hfile] at h
    cases h
  cache fd st contents h := by
    rw [hcache] at h
    cases h
  pipe readEnd writeEnd h := by
    rw [hpipe] at h
    cases h
  temporary fd h := by
    rw [htmp] at h
    cases h

/-- The file is closed. -/
theorem descriptors_closed_file :
    Event.closed 7 ∈ (Run.runs (step fileServer) Conn.initial fileInputs).trace ∧
      ∀ front back recycled unsent status,
        (Run.runs (step fileServer) Conn.initial fileInputs).trace
            = front ++ Event.freed recycled unsent status :: back →
          Ledger.held (descriptorOps front) = some [] := by
  have hstates : ((∀ k < 5,
      (Run.runs (step fileServer) Conn.initial (fileInputs.take k)).req.method ≠ .post) ∧
      7 ∉ [(Run.runs (step fileServer) Conn.initial (fileInputs.take 2)).req.dataFd,
        (Run.runs (step fileServer) Conn.initial (fileInputs.take 2)).req.postDataFd]) ∧
      Event.closed 7 ∈ (Run.runs (step fileServer) Conn.initial fileInputs).trace := by
    decide +kernel
  obtain ⟨⟨hmethod, hseven⟩, hclosed⟩ := hstates
  have hnothing (used : List ℕ) : ({} : Env).Fresh used :=
    fresh_of_nothing (fun _ => rfl) rfl rfl rfl used
  have hread (used : List ℕ) :
      ({ sockRead := .data (str "GET /f HTTP/1.0\n\n") } : Env).Fresh used :=
    fresh_of_nothing (fun _ => rfl) rfl rfl rfl used
  have hopen : ({ openFile := fun _ => .ok 7 { kind := .regular, size := 3 } fun _ => 65 } :
      Env).Fresh [(Run.runs (step fileServer) Conn.initial (fileInputs.take 2)).req.dataFd,
        (Run.runs (step fileServer) Conn.initial (fileInputs.take 2)).req.postDataFd] := by
    refine ⟨fun path fd st contents h => ?_, fun fd st contents h => ?_,
      fun readEnd writeEnd h => ?_, fun fd h => ?_⟩
    · cases h
      exact ⟨by decide, hseven⟩
    · cases h
    · cases h
    · cases h
  refine ⟨hclosed, (descriptors_closed fileServer fileInputs ⟨⟨trivial, ?_⟩, ⟨?_, ?_⟩, ⟨?_, ?_⟩,
    ⟨trivial, ?_⟩, ⟨?_, ?_⟩, trivial⟩).2⟩
  · rintro env ⟨⟩
  · exact fun _ hback => hmethod 1 (by decide) hback.1.2.1
  · rintro env ⟨⟩ -
    exact hread _
  · exact fun _ hback => hmethod 2 (by decide) hback.1.2.1
  · rintro env ⟨⟩ -
    exact hopen
  · rintro env ⟨⟩
  · have hlast := hmethod 4 (by decide)
    simp only [fileInputs, List.take_succ_cons, List.take_zero, Run.runs_cons, Run.runs_nil]
      at hlast
    exact fun _ hback => hlast hback.1.2.1
  · rintro env ⟨⟩ -
    exact hnothing _

end Yabwf
