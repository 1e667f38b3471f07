import Yabwf.Release
import Yabwf.Visit

/-!
The output of a script in `req->buffer`.

* `Inside`: nothing is stored behind the buffer.
* `processCgiHeader_inside`, `writeFromPipe_inside`, `readFromPipe_inside`: the handlers of a
  script keep inside as long as no `read` fills all of the room that it is offered.
* `PipeState`: where the pointers stand between two visits.
* `pipe_stores_inside_iff`: a visit stores a byte behind the buffer exactly when it reads so
  much.
-/

namespace Yabwf

open Memory

/-! ### The header of a script -/

lemma strstr_prefix {pat s : Bytes} {k : ℕ} (h : strstr pat s = some k) : pat <+: s.drop k := by
  induction s generalizing k with
  | nil =>
      rw [strstr] at h
      split_ifs at h with hpat
      rw [hpat]
      exact List.nil_prefix
  | cons b s ih =>
      rw [strstr] at h
      split_ifs at h with hpat
      · cases h
        exact List.isPrefixOf_iff_prefix.mp hpat
      · obtain ⟨j, hj, rfl⟩ := Option.map_eq_some_iff.mp h
        exact ih hj

/-- The blank line begins with a line feed, and does not end the string. -/
lemma findBlankLine_spec {s : Bytes} {k : ℕ} (h : findBlankLine s = some k) :
    s[k]? = some 10 ∧ k + 2 ≤ s.length := by
  have hspec : ∀ pat : Bytes, pat.head? = some 10 → 2 ≤ pat.length → strstr pat s = some k →
      s[k]? = some 10 ∧ k + 2 ≤ s.length := by
    intro pat hhead hlen hpat
    have hprefix := strstr_prefix hpat
    have hle := hprefix.length_le
    rw [List.length_drop] at hle
    obtain ⟨t, ht⟩ := hprefix
    constructor
    · rw [← List.head?_drop, ← ht, List.head?_append, hhead, Option.some_or]
    · omega
  rw [findBlankLine, Option.orElse_eq_or] at h
  rcases Option.or_eq_some_iff.mp h with hcr | ⟨-, hlf⟩
  · exact hspec _ rfl (by decide) hcr
  · exact hspec _ rfl (by decide) hlf

/-- There is no line feed in `Location: `. -/
lemma ten_le_of_location {s : Bytes} {k : ℕ} (hk : s[k]? = some 10)
    (h : hasPrefixCase (str "Location: ") s = true) : 10 ≤ k := by
  by_contra hlt
  obtain ⟨t, ht⟩ := List.isPrefixOf_iff_prefix.mp h
  have hlower : (s.map toLowerByte)[k]? = some 10 := by
    rw [List.getElem?_map, hk]
    rfl
  rw [← ht, List.getElem?_append_left (by simpa [str] using hlt)] at hlower
  exact absurd (List.mem_of_getElem? hlower) (by decide)

/-- The line of the location ends in front of the blank line. -/
lemma location_stop {r : Request} {buf k : ℕ}
    (hfind : findBlankLine (r.bufferString buf) = some k)
    (hloc : hasPrefixCase (str "Location: ") (r.bufferString buf) = true) :
    buf + 10 + (((r.bufferString (buf + 10)).takeWhile (· != 10)).rdropWhile (· == 13)).length
      ≤ bufferSize := by
  obtain ⟨hk, hlen⟩ := findBlankLine_spec hfind
  have hten := ten_le_of_location hk hloc
  have hall : (r.bufferString buf).length ≤ bufferSize + 2 - buf := Mem.length_cstr_le _ _ _
  have hvalue : r.bufferString (buf + 10) = (r.bufferString buf).drop 10 := by
    have hlong : 10 ≤ (r.bufferString buf).length := by omega
    rw [Request.bufferString, Request.bufferString, Mem.cstr_drop _ hlong, Nat.sub_sub]
  have hline : ((r.bufferString (buf + 10)).takeWhile (· != 10)).length ≤ k - 10 := by
    by_contra hlt
    have hmem : (r.bufferString (buf + 10))[k - 10]? = some 10 := by
      rw [hvalue, List.getElem?_drop, Nat.add_sub_cancel' hten, hk]
    have htake : ((r.bufferString (buf + 10)).takeWhile (· != 10))[k - 10]? = some 10 := by
      obtain ⟨t, ht⟩ := List.takeWhile_prefix (l := r.bufferString (buf + 10))
        fun b : UInt8 => b != 10
      rw [← ht, List.getElem?_append_left (by omega)] at hmem
      exact hmem
    have hne := List.mem_takeWhile_imp (List.mem_of_getElem? htake)
    exact absurd hne (by decide)
  have hdrop := (List.rdropWhile_prefix (· == (13 : UInt8))
    (l := (r.bufferString (buf + 10)).takeWhile (· != 10))).length_le
  omega

/-! ### What is stored -/

/-- Nothing is stored behind the buffer. -/
def Inside (c c' : Conn) : Prop := ∀ i, bufferSize < i → c'.req.buffer i = c.req.buffer i

lemma Inside.refl (c : Conn) : Inside c c := fun _ _ => rfl

lemma Inside.trans {c c' c'' : Conn} (h : Inside c c') (h' : Inside c' c'') : Inside c c'' :=
  fun i hi => (h' i hi).trans (h i hi)

/-- A store that ends inside the buffer. -/
lemma Inside.store {c c' : Conn} (off : ℕ) {bs : Bytes} (hfit : off + bs.length ≤ bufferSize + 1)
    (h : c'.req.buffer = c.req.buffer.store off bs) : Inside c c' := by
  intro i hi
  rw [h]
  exact if_neg (by omega)

/-- The zero lies inside the buffer. -/
lemma cgiLocation_outputs {cfg : Config} {env : Env} {c : Conn} {buf k : ℕ}
    (hfind : findBlankLine (c.req.bufferString buf) = some k)
    (hloc : hasPrefixCase (str "Location: ") (c.req.bufferString buf) = true) :
    ∃ d : Conn, Inside c d ∧ d.req.headerEnd = c.req.headerEnd ∧
      d.req.cgiStatus = c.req.cgiStatus ∧ Outputs d (cgiLocation cfg env buf c) := by
  have hstop : locationStop c.req buf + [(0 : UInt8)].length ≤ bufferSize + 1 :=
    Nat.succ_le_succ (location_stop hfind hloc)
  rcases cgiLocation_cases cfg env buf c with heq | ⟨url, moreHdr, heq⟩
  · rw [heq]
    exact ⟨c, Inside.refl c, rfl, rfl, sendRBadRequest_outputs cfg env c⟩
  · rw [heq]
    refine ⟨c.endLocation buf, Inside.store _ hstop ?_, ?_, ?_,
      sendRMovedTemp_outputs cfg env url moreHdr _⟩
    · rw [Conn.endLocation, Conn.upd_req]
    · rw [Conn.endLocation, Conn.upd_req]
    · rw [Conn.endLocation, Conn.upd_req]

/-- `process_cgi_header` has queued the header of the server; of the answer to a `HEAD`, only
the header is left. -/
def cgiAnswered (cfg : Config) (env : Env) (blank : ℕ) (c : Conn) : Conn :=
  if (sendRRequestOk cfg env c).req.method = .head then
    (sendRRequestOk cfg env c).upd fun r => { r with
      headerEnd := ⟨.buffer, behindLine r blank⟩
      cgiStatus := .done }
  else sendRRequestOk cfg env c

/-- `process_cgi_header` has moved the data of the script behind the header of the server. -/
def Conn.merged (c : Conn) : Conn :=
  (c.append (c.req.buffer.slice c.req.headerLine.off
    (c.req.headerEnd.off - c.req.headerLine.off))).upd fun r => { r with
      headerLine := ⟨.buffer, r.bufferEnd⟩
      headerEnd := ⟨.buffer, r.bufferEnd⟩ }

lemma cgiMerge_eq (cfg : Config) (env : Env) (blank : ℕ) (c : Conn) :
    cgiMerge cfg env blank c =
      if bufferSize < (cgiAnswered cfg env blank c).req.bufferEnd +
          ((cgiAnswered cfg env blank c).req.headerEnd.off -
            (cgiAnswered cfg env blank c).req.headerLine.off) then
        (0, sendRError cfg env ((cgiAnswered cfg env blank c).clearBuffer.emit .dropped))
      else
        (if (reqFlush (cgiAnswered cfg env blank c).merged).2.req.method = .head then 0 else 1,
          (reqFlush (cgiAnswered cfg env blank c).merged).2) := rfl

lemma cgiAnswered_inside (cfg : Config) (env : Env) (blank : ℕ) (c : Conn) :
    Inside c (cgiAnswered cfg env blank c) := by
  have hok := (sendRRequestOk_outputs cfg env c).inside
  rw [cgiAnswered]
  split_ifs <;> exact hok

lemma Outputs.cgiStatus {c c' : Conn} (h : Outputs c c') :
    c'.req.cgiStatus = c.req.cgiStatus := by
  obtain ⟨_, _, _, _, _, _, _, hreq⟩ := h.req
  rw [hreq]

lemma Outputs.headerEnd {c c' : Conn} (h : Outputs c c') :
    c'.req.headerEnd = c.req.headerEnd := by
  obtain ⟨_, _, _, _, _, _, _, hreq⟩ := h.req
  rw [hreq]

lemma cgiAnswered_cgiStatus (cfg : Config) (env : Env) (blank : ℕ) {c : Conn}
    (h : c.req.cgiStatus ≠ .parse) : (cgiAnswered cfg env blank c).req.cgiStatus ≠ .parse := by
  have hok := (sendRRequestOk_outputs cfg env c).cgiStatus
  rw [cgiAnswered]
  split_ifs
  · exact (by decide : CgiStatus.done ≠ .parse)
  · rwa [hok]

/-- Where the pointers of a request with a script stand between two visits: there is room
for a zero, and a header that has not been parsed begins in the middle of the buffer. -/
structure PipeState (r : Request) : Prop where
  room : r.headerEnd.off ≤ bufferSize
  parse : r.cgiStatus = .parse → r.headerLine.off = bufferSize / 2
  write : r.status = .pipeWrite → r.cgiStatus ≠ .parse

lemma PipeState.of_parsed {r : Request} (hroom : r.headerEnd.off ≤ bufferSize)
    (hparse : r.cgiStatus ≠ .parse) : PipeState r :=
  ⟨hroom, fun h => absurd h hparse, fun _ => hparse⟩

lemma PipeState.of_outputs {c c' : Conn} (h : Outputs c c')
    (hroom : c.req.headerEnd.off ≤ bufferSize) (hparse : c.req.cgiStatus ≠ .parse) :
    PipeState c'.req := by
  refine PipeState.of_parsed ?_ ?_
  · rwa [h.headerEnd]
  · rwa [h.cgiStatus]

/-- What a handler of a script does: it keeps inside the buffer, and, where the data does, it
leaves the pointers where the next one expects them, unless it ends the request. -/
def Pipes (c : Conn) (res : ℤ × Conn) : Prop :=
  Inside c res.2 ∧ (c.req.headerEnd.off ≤ bufferSize → res.1 ≠ 0 → PipeState res.2.req)

lemma cgiMerge_pipes {cfg : Config} {env : Env} {blank : ℕ} {c : Conn}
    (hparse : c.req.cgiStatus ≠ .parse) : Pipes c (cgiMerge cfg env blank c) := by
  have hin := cgiAnswered_inside cfg env blank c
  have hstatus := cgiAnswered_cgiStatus cfg env blank hparse
  rw [cgiMerge_eq]
  generalize cgiAnswered cfg env blank c = d at hin hstatus
  split_ifs with hfit hhead
  · refine ⟨hin.trans ?_, fun _ h => absurd rfl h⟩
    exact (sendRError_outputs cfg env _).inside
  all_goals
    have hmerge : Inside c d.merged := hin.trans (Inside.store d.req.bufferEnd (by
      rw [Mem.length_slice]
      omega) rfl)
    refine ⟨hmerge.trans (reqFlush_outputs d.merged).inside, fun _ _ => ?_⟩
    refine PipeState.of_outputs (reqFlush_outputs d.merged) ?_ hstatus
    change d.req.bufferEnd + _ ≤ bufferSize
    rw [Mem.length_slice]
    exact not_lt.mp hfit

lemma cgiBegun_cgiStatus (c : Conn) : c.cgiBegun.req.cgiStatus ≠ .parse := by
  rw [Conn.cgiBegun, Conn.upd_req]
  dsimp only
  split_ifs <;> decide

lemma processCgiHeader_pipes {cfg : Config} {env : Env} {c : Conn}
    (hline : c.req.headerLine.off = bufferSize / 2) : Pipes c (processCgiHeader cfg env c) := by
  have hparse := cgiBegun_cgiStatus c
  have hin : Inside c c.cgiBegun := Inside.refl c
  rcases processCgiHeader_cases cfg env c with heq | ⟨k, hfind, hcase⟩
  · rw [heq]
    exact ⟨hin.trans (sendRBadGateway_outputs cfg env c.cgiBegun).inside,
      fun _ h => absurd rfl h⟩
  rcases hcase with ⟨-, heq⟩ | heq | ⟨hloc, heq⟩ | heq
  · rw [heq]
    exact ⟨hin, fun hroom _ => PipeState.of_parsed hroom hparse⟩
  · rw [heq, hline]
    exact ⟨hin.trans (Inside.store (bufferSize / 2 - 1) (by decide) rfl),
      fun hroom _ => PipeState.of_parsed hroom hparse⟩
  · rw [heq]
    obtain ⟨d, hstore, hend, hstatus, hout⟩ :
        ∃ d : Conn, Inside c.cgiBegun d ∧ d.req.headerEnd = c.cgiBegun.req.headerEnd ∧
          d.req.cgiStatus = c.cgiBegun.req.cgiStatus ∧
          Outputs d (cgiLocation cfg env c.req.headerLine.off c.cgiBegun) :=
      cgiLocation_outputs hfind hloc
    exact ⟨hin.trans (hstore.trans hout.inside), fun hroom _ => PipeState.of_outputs
      (hout.trans (setStatus_outputs le_rfl _)) (hend ▸ hroom) (hstatus ▸ hparse)⟩
  · rw [heq]
    have hmerge : Pipes c.cgiBegun (cgiMerge cfg env (c.req.headerLine.off + k) c.cgiBegun) :=
      cgiMerge_pipes hparse
    exact ⟨hin.trans hmerge.1, hmerge.2⟩

lemma writeFromPipe_pipes {c : Conn} (hparse : c.req.cgiStatus ≠ .parse) :
    Pipes c (writeFromPipe c) := by
  rcases writeFromPipe_cases c with
    ⟨-, ⟨-, heq⟩ | ⟨-, heq⟩⟩ | ⟨t, -, heq⟩ | ⟨t, heq⟩ | ⟨t, heq⟩ | ⟨t, n, -, ⟨-, heq⟩ | ⟨-, heq⟩⟩
  · rw [heq]
    exact ⟨Inside.refl c, fun hroom _ => PipeState.of_parsed hroom hparse⟩
  · rw [heq]
    exact ⟨Inside.refl c, fun _ _ => PipeState.of_parsed (Nat.zero_le _) hparse⟩
  · rw [heq]
    exact ⟨Inside.refl c, fun hroom _ => PipeState.of_parsed hroom hparse⟩
  · rw [heq]
    exact ⟨Inside.refl c, fun hroom _ => PipeState.of_parsed hroom hparse⟩
  · rw [heq]
    exact ⟨Inside.refl c, fun hroom _ => PipeState.of_parsed hroom hparse⟩
  · rw [heq]
    exact ⟨Inside.refl c, fun _ _ => PipeState.of_parsed (Nat.zero_le _) hparse⟩
  · rw [heq]
    exact ⟨Inside.refl c, fun hroom _ => PipeState.of_parsed hroom hparse⟩

/-- The pipe gives all the bytes that `read_from_pipe` asks for. -/
def FillsBuffer (env : Env) (r : Request) : Prop :=
  ∃ bs, env.pipeRead = .data bs ∧ bufferSize < r.headerEnd.off + bs.length

/-- `read_from_pipe` keeps inside the buffer unless it fills it. -/
lemma readFromPipe_pipes {cfg : Config} {env : Env} {c : Conn} (h : PipeState c.req)
    (hfill : ¬FillsBuffer env c.req) : Pipes c (readFromPipe cfg env c) := by
  have hroom := h.room
  rcases readFromPipe_cases cfg env c with ⟨hfull, -⟩ | ⟨-, hcase⟩
  · omega
  rcases hcase with ⟨-, heq⟩ | ⟨-, heq⟩ | ⟨-, heq⟩ | ⟨-, hcase⟩ | ⟨b, bs, hres, hcase⟩
  · rw [heq]
    exact ⟨Inside.refl c, fun _ _ => h⟩
  · rw [heq]
    exact ⟨Inside.refl c, fun _ _ => h⟩
  · rw [heq]
    exact ⟨Inside.refl c, fun _ h => absurd rfl h⟩
  · have hin : Inside c c.pipeEof := by
      refine Inside.store c.req.headerEnd.off ?_ rfl
      rw [List.length_singleton]
      omega
    rcases hcase with ⟨hparse, heq⟩ | ⟨-, heq⟩
    · rw [heq]
      have hpipes : Pipes c.pipeEof (processCgiHeader cfg env c.pipeEof) :=
        processCgiHeader_pipes (h.parse hparse)
      exact ⟨hin.trans hpipes.1, hpipes.2⟩
    · rw [heq]
      exact ⟨hin, fun hroom _ => PipeState.of_parsed hroom (by decide : CgiStatus.done ≠ .parse)⟩
  · -- the bytes and the zero behind them fit
    have hfit : c.req.headerEnd.off + (b :: bs).length ≤ bufferSize :=
      not_lt.mp fun hlt => hfill ⟨_, hres, hlt⟩
    have htake : (b :: bs).take (bufferSize + 1 - c.req.headerEnd.off) = b :: bs :=
      List.take_of_length_le (by omega)
    rw [htake] at hcase
    generalize b :: bs = data at hfit hcase
    have hin : Inside c (c.pipedIn data) := by
      refine Inside.store c.req.headerEnd.off ?_ rfl
      rw [List.length_append, List.length_singleton]
      omega
    rcases hcase with ⟨hparse, heq⟩ | ⟨hparse, heq⟩ | ⟨hparse, heq⟩
    · rw [heq]
      have hpipes : Pipes (c.pipedIn data) (writeFromPipe (c.pipedIn data)) :=
        writeFromPipe_pipes hparse
      exact ⟨hin.trans hpipes.1, fun _ => hpipes.2 hfit⟩
    · rw [heq]
      exact ⟨hin, fun _ _ => ⟨hfit, h.parse, h.write⟩⟩
    · rw [heq]
      have hend : Inside (c.pipedIn data) ((c.pipedIn data).toCgiHeader .done) := by
        refine Inside.store (c.req.headerEnd.off + data.length) ?_ rfl
        rw [List.length_singleton]
        omega
      have hpipes : Pipes ((c.pipedIn data).toCgiHeader .done)
          (processCgiHeader cfg env ((c.pipedIn data).toCgiHeader .done)) :=
        processCgiHeader_pipes (h.parse hparse)
      exact ⟨hin.trans (hend.trans hpipes.1), fun _ => hpipes.2 hfit⟩

/-- A `read` that fills the buffer puts a zero behind it. -/
lemma readFromPipe_fills {cfg : Config} {env : Env} {c : Conn} (h : PipeState c.req)
    (hfill : FillsBuffer env c.req) :
    (readFromPipe cfg env c).2.req.buffer (bufferSize + 1) = 0 := by
  have hroom := h.room
  obtain ⟨data, hdata, hlong⟩ := hfill
  rcases readFromPipe_cases cfg env c with ⟨hfull, -⟩ | ⟨-, hcase⟩
  · omega
  rcases hcase with ⟨hres, -⟩ | ⟨hres, -⟩ | ⟨hres, -⟩ | ⟨hres, -⟩ | ⟨b, bs, hres, hcase⟩
  · rw [hdata] at hres
    cases hres
  · rw [hdata] at hres
    cases hres
  · rw [hdata] at hres
    cases hres
  · rw [hdata] at hres
    cases hres
    rw [List.length_nil] at hlong
    omega
  · rw [hdata] at hres
    cases hres
    have htake : ((b :: bs).take (bufferSize + 1 - c.req.headerEnd.off)).length
        = bufferSize + 1 - c.req.headerEnd.off := List.length_take_of_le (by omega)
    generalize (b :: bs).take (bufferSize + 1 - c.req.headerEnd.off) = data at htake hcase
    have hbehind : c.req.headerEnd.off + data.length = bufferSize + 1 := by omega
    have hzero : (c.pipedIn data).req.buffer (bufferSize + 1) = 0 := by
      rw [← hbehind]
      exact Mem.store_end_zero _ _ _
    rcases hcase with ⟨hparse, heq⟩ | ⟨-, heq⟩ | ⟨hparse, heq⟩
    · rw [heq]
      have hpipes : Pipes (c.pipedIn data) (writeFromPipe (c.pipedIn data)) :=
        writeFromPipe_pipes hparse
      rw [hpipes.1 _ (Nat.lt_succ_self _), hzero]
    · rw [heq]
      exact hzero
    · rw [heq]
      have hpipes : Pipes ((c.pipedIn data).toCgiHeader .done)
          (processCgiHeader cfg env ((c.pipedIn data).toCgiHeader .done)) :=
        processCgiHeader_pipes (h.parse hparse)
      rw [hpipes.1 (bufferSize + 1) (Nat.lt_succ_self _), ← hbehind]
      exact Mem.store_end_zero _ _ []

/-! ### Visits -/

/-- A request that is being served by a script, or by a listing. -/
def Conn.onPipe (c : Conn) : Bool :=
  !c.free && (c.req.status == .pipeRead || c.req.status == .pipeWrite)

/-- A visit to such a request. -/
def pipeVisit (cfg : Config) (c : Conn) (env : Env) : Conn :=
  if c.onPipe then visit cfg env c else c

lemma releaseRequest_inside (cfg : Config) (c : Conn) : Inside c (releaseRequest cfg c) := by
  rcases releaseRequest_cases cfg c with ⟨n, -, heq⟩ | ⟨n, -, heq⟩
  · rw [heq]
    exact Inside.refl c
  · rw [heq]
    exact Inside.refl c

lemma releaseRequest_onPipe (cfg : Config) (c : Conn) : (releaseRequest cfg c).onPipe = false := by
  rcases releaseRequest_cases cfg c with ⟨n, -, heq⟩ | ⟨n, -, heq⟩
  · rw [heq, Conn.onPipe, Bool.and_eq_false_iff]
    exact Or.inr rfl
  · rw [heq]
    rfl

/-- `free_request` keeps the request for its buffer, which is `DONE` or `DEAD` then, or ends
it. -/
lemma freeRequest_cases (cfg : Config) (c : Conn) : ∃ d, Outputs c d ∧
    ((ReqStatus.done.code ≤ d.req.status.code ∧ freeRequest cfg c = d) ∨
      freeRequest cfg c = releaseRequest cfg d) := by
  rw [freeRequest]
  by_cases hbuf : c.req.bufferEnd ≠ 0 ∧ c.req.status.code < ReqStatus.timedOut.code
  swap
  · rw [if_neg hbuf]
    exact ⟨c, Outputs.refl c, Or.inr rfl⟩
  rw [if_pos hbuf]
  have hdone : Outputs c (c.setStatus .done) := setStatus_outputs le_rfl c
  have hout := reqFlush_outputs (c.setStatus .done)
  have hstatus : ReqStatus.done.code ≤ (reqFlush (c.setStatus .done)).2.req.status.code := by
    rcases hout.status with hs | hs
    · rw [hs]
      exact le_rfl
    · exact hs
  generalize reqFlush (c.setStatus .done) = res at hout hstatus ⊢
  obtain ⟨i, d⟩ := res
  dsimp only at hout hstatus ⊢
  split_ifs
  · exact ⟨d.setStatus .dead, hdone.trans (hout.trans (setStatus_outputs (by decide) d)),
      Or.inr rfl⟩
  · exact ⟨d, hdone.trans hout, Or.inl ⟨hstatus, rfl⟩⟩
  · exact ⟨d, hdone.trans hout, Or.inr rfl⟩

lemma onPipe_of_done_le {c : Conn} (h : ReqStatus.done.code ≤ c.req.status.code) :
    c.onPipe = false := by
  rw [Conn.onPipe, Bool.and_eq_false_iff]
  right
  revert h
  cases c.req.status <;> decide

/-- The end of a request stores nothing, and the request is no longer served by a script. -/
lemma freeRequest_inside (cfg : Config) (c : Conn) :
    Inside c (freeRequest cfg c) ∧ (freeRequest cfg c).onPipe = false := by
  obtain ⟨d, hout, ⟨hstatus, heq⟩ | heq⟩ := freeRequest_cases cfg c
  · rw [heq]
    exact ⟨hout.inside, onPipe_of_done_le hstatus⟩
  · rw [heq]
    exact ⟨Inside.trans hout.inside (releaseRequest_inside cfg d), releaseRequest_onPipe cfg d⟩

/-- The end of a visit stores nothing. -/
lemma finish_inside (cfg : Config) (retval : ℤ) (c : Conn) :
    Inside c (if retval = 0 then freeRequest cfg c
      else if retval = 1 ∨ retval = -1 then c else c.die) := by
  split_ifs
  · exact (freeRequest_inside cfg c).1
  · exact Inside.refl c
  · exact Inside.refl c

/-- What a visit to a request with a script does. -/
def VisitsPipe (c c' : Conn) : Prop := Inside c c' ∧ (c'.onPipe = true → PipeState c'.req)

lemma VisitsPipe.of_free {cfg : Config} {c d : Conn} (h : Inside c d) :
    VisitsPipe c (freeRequest cfg d) := by
  obtain ⟨hin, hoff⟩ := freeRequest_inside cfg d
  refine ⟨h.trans hin, fun hon => ?_⟩
  rw [hoff] at hon
  cases hon

lemma squashIf_inside {c d : Conn} (h : Inside c d) (sigterm : Bool) :
    Inside c (if sigterm = true then d.squashKa else d) := by
  split_ifs <;> exact h

lemma squashIf_pipeState {d : Conn} (h : PipeState d.req) (sigterm : Bool) :
    PipeState (if sigterm = true then d.squashKa else d).req := by
  split_ifs
  · exact ⟨h.room, h.parse, h.write⟩
  · exact h

/-- A visit does what its handler does. -/
lemma visit_pipes {cfg : Config} {env : Env} {c d : Conn}
    (hflush : flushFirst { c with tape := env.sock } = (1, d)) (hin : Inside c d)
    (hroom : d.req.headerEnd.off ≤ bufferSize) (h : Pipes d (handleStatus cfg env d)) :
    VisitsPipe c (visit cfg env c) := by
  have hproc : processRequest cfg env { c with tape := env.sock } = _ :=
    processRequest_of_flush hflush
  rw [visit, hproc]
  generalize handleStatus cfg env d = res at h
  obtain ⟨retval, d'⟩ := res
  have hin' : Inside c d' := hin.trans h.1
  have hstate : retval ≠ 0 → PipeState d'.req := h.2 hroom
  dsimp only
  by_cases hzero : retval = 0
  · rw [if_pos hzero]
    exact VisitsPipe.of_free (squashIf_inside hin' env.sigterm)
  rw [if_neg hzero]
  have hsquash : Inside c (if env.sigterm = true then d'.squashKa else d') :=
    squashIf_inside hin' env.sigterm
  by_cases hone : retval = 1 ∨ retval = -1
  · rw [if_pos hone]
    exact ⟨hsquash, fun _ => squashIf_pipeState (hstate hzero) env.sigterm⟩
  · rw [if_neg hone]
    refine ⟨hsquash, fun hon => ?_⟩
    rw [onPipe_of_done_le (by exact done_le_dead)] at hon
    cases hon

/-- A visit gets to `read_from_pipe`, and the pipe gives all the bytes that it asks for. -/
def FillsBehind (env : Env) (c : Conn) : Prop :=
  c.req.status = .pipeRead ∧ FlushOk { c with tape := env.sock } ∧ FillsBuffer env c.req

lemma flushFirst_outputs (c : Conn) : Outputs c (flushFirst c).2 := by
  have hout := reqFlush_outputs c
  rw [flushFirst]
  split_ifs
  · generalize reqFlush c = res at hout
    obtain ⟨retval, d⟩ := res
    dsimp only at hout ⊢
    split_ifs
    · exact hout.trans (setStatus_outputs (by decide) d)
    · exact hout
    · exact hout
  · exact Outputs.refl c

lemma status_of_onPipe {c : Conn} (h : c.onPipe = true) :
    c.req.status = .pipeRead ∨ c.req.status = .pipeWrite := by
  rw [Conn.onPipe, Bool.and_eq_true, Bool.or_eq_true, beq_iff_eq, beq_iff_eq] at h
  exact h.2

/-- A visit keeps inside the buffer unless it fills it. -/
lemma visit_inside {cfg : Config} {env : Env} {c : Conn} (hon : c.onPipe = true)
    (h : PipeState c.req) (hfill : ¬FillsBehind env c) : VisitsPipe c (visit cfg env c) := by
  rcases flushFirst_cases { c with tape := env.sock } with
    ⟨hfail, -⟩ | ⟨t, -, -, -, hflush⟩ | ⟨t, es, s, e, hflush, hok, -⟩
  · have hproc : (processRequest cfg env { c with tape := env.sock }).1 = 0 := by
      rw [processRequest, if_neg (by rw [hfail]; decide)]
      exact hfail
    have hin : Inside c (processRequest cfg env { c with tape := env.sock }).2 := by
      rw [processRequest, if_neg (by rw [hfail]; decide)]
      exact squashIf_inside (flushFirst_outputs _).inside env.sigterm
    rw [visit]
    generalize processRequest cfg env { c with tape := env.sock } = res at hproc hin
    obtain ⟨retval, d⟩ := res
    dsimp only at hproc ⊢
    rw [if_pos hproc]
    exact VisitsPipe.of_free hin
  · have hproc : processRequest cfg env { c with tape := env.sock } = _ :=
      processRequest_of_blocked hflush
    rw [visit_of_ret hproc (Or.inr rfl)]
    have hsame : PipeState (({ c with tape := env.sock } : Conn).setTape t).req := h
    have hin : Inside c (({ c with tape := env.sock } : Conn).setTape t) := Inside.refl c
    exact ⟨squashIf_inside hin env.sigterm, fun _ => squashIf_pipeState hsame env.sigterm⟩
  · set d := ({ c with tape := env.sock } : Conn).cursors t es s e
    have hstate : PipeState d.req := ⟨h.room, h.parse, h.write⟩
    have hcases : d.req.status = .pipeRead ∨ d.req.status = .pipeWrite := status_of_onPipe hon
    have hread : d.req.status = .pipeRead → ¬FillsBuffer env d.req := by
      intro hs hf
      have hlive : ReqStatus.pipeRead.code < ReqStatus.timedOut.code := by decide
      have hcode : c.req.status = .pipeRead := hs
      exact hfill ⟨hs, hok (by rwa [hcode]), hf⟩
    have hin : Inside c d := Inside.refl c
    clear_value d
    refine visit_pipes hflush hin hstate.room ?_
    rcases hcases with hstatus | hstatus
    · rw [handleStatus, hstatus]
      exact readFromPipe_pipes hstate (hread hstatus)
    · rw [handleStatus, hstatus]
      exact writeFromPipe_pipes (hstate.write hstatus)

/-- A visit that fills the buffer puts a zero behind it. -/
lemma visit_fills {cfg : Config} {env : Env} {c : Conn} (h : PipeState c.req)
    (hfill : FillsBehind env c) : (visit cfg env c).req.buffer (bufferSize + 1) = 0 := by
  obtain ⟨hstatus, hok, hfill⟩ := hfill
  have hlive : ReqStatus.pipeRead.code < ReqStatus.timedOut.code := by decide
  have hone : (flushFirst { c with tape := env.sock }).1 = 1 :=
    (flushFirst_eq_one_iff (by rwa [hstatus])).mpr hok
  rcases flushFirst_cases { c with tape := env.sock } with
    ⟨hfail, -⟩ | ⟨t, -, -, -, hflush⟩ | ⟨t, es, s, e, hflush, -⟩
  · rw [hfail] at hone
    cases hone
  · rw [hflush] at hone
    exact absurd hone (by decide : (-1 : ℤ) ≠ 1)
  · set d := ({ c with tape := env.sock } : Conn).cursors t es s e
    have hstate : PipeState d.req := ⟨h.room, h.parse, h.write⟩
    have hstatus' : d.req.status = .pipeRead := hstatus
    have hfill' : FillsBuffer env d.req := hfill
    clear_value d
    have hproc : processRequest cfg env { c with tape := env.sock } = _ :=
      processRequest_of_flush hflush
    have hzero : (readFromPipe cfg env d).2.req.buffer (bufferSize + 1) = 0 :=
      readFromPipe_fills hstate hfill'
    rw [visit, hproc, handleStatus, hstatus']
    dsimp only
    generalize readFromPipe cfg env d = res at hzero ⊢
    obtain ⟨retval, d'⟩ := res
    dsimp only at hzero ⊢
    have hsquash : (if env.sigterm = true then d'.squashKa else d').req.buffer (bufferSize + 1)
        = 0 := by
      rw [squashIf_inside (Inside.refl d') env.sigterm _ (Nat.lt_succ_self _), hzero]
    rw [finish_inside cfg retval _ _ (Nat.lt_succ_self _), hsquash]

/-! ### Whole runs -/

/-- The connection with other bytes in its buffer. -/
def Conn.setBuffer (m : Mem) (c : Conn) : Conn := c.upd fun r => { r with buffer := m }

/-- A visit stores nothing behind the buffer: whatever stands there, it leaves it alone. -/
def StoresInside (cfg : Config) (env : Env) (c : Conn) : Prop :=
  ∀ m : Mem, (∀ i ≤ bufferSize, m i = c.req.buffer i) →
    ∀ i, bufferSize < i → (visit cfg env (c.setBuffer m)).req.buffer i = m i

lemma setBuffer_pop (m : Mem) (c : Conn) : (c.setBuffer m).pop.1 = c.pop.1 := by
  have htape : (c.setBuffer m).tape = c.tape := rfl
  rw [Conn.pop, Conn.pop, htape]
  cases c.tape <;> rfl

lemma fillsBehind_setBuffer (env : Env) (m : Mem) (c : Conn) :
    FillsBehind env (c.setBuffer m) ↔ FillsBehind env c := by
  have hpop : ({ c.setBuffer m with tape := env.sock } : Conn).pop.1
      = ({ c with tape := env.sock } : Conn).pop.1 :=
    setBuffer_pop m { c with tape := env.sock }
  rw [FillsBehind, FillsBehind, FlushOk, FlushOk, hpop]
  exact Iff.rfl

/-- Behind `init_cgi`, there is room in the buffer. -/
lemma initCgiParent_pipeState (readEnd writeEnd : ℕ) (c : Conn) :
    PipeState (initCgiParent (some (readEnd, writeEnd)) c).2.req := by
  have hroom : ∀ type : CgiType, (if type = .cgi then bufferSize / 2 else 0) ≤ bufferSize := by
    intro type
    cases type <;> decide
  have hparse : ∀ type : CgiType, (if type = .cgi then CgiStatus.parse else .buffer) = .parse →
      (if type = .cgi then bufferSize / 2 else 0) = bufferSize / 2 := by
    intro type h
    cases type with
    | cgi => rfl
    | _ => cases h
  unfold initCgiParent
  extract_lets d
  exact ⟨hroom d.req.cgiType, hparse d.req.cgiType,
    fun h => absurd h (by decide : ReqStatus.pipeRead ≠ .pipeWrite)⟩

/-- A visit stores nothing behind the buffer if and only if it does not fill it. -/
lemma storesInside_iff (cfg : Config) (env : Env) {c : Conn} (hon : c.onPipe = true)
    (h : PipeState c.req) : StoresInside cfg env c ↔ ¬FillsBehind env c := by
  have hstate : ∀ m, PipeState (c.setBuffer m).req := fun m => ⟨h.room, h.parse, h.write⟩
  constructor
  · intro hstores hfill
    have hone := hstores (Function.update c.req.buffer (bufferSize + 1) 1) (fun i hi =>
      Function.update_of_ne (by omega) _ _) (bufferSize + 1) (Nat.lt_succ_self _)
    rw [visit_fills (hstate _) ((fillsBehind_setBuffer env _ c).mpr hfill),
      Function.update_self] at hone
    exact absurd hone (by decide)
  · intro hfill m _ i hi
    have hnot : ¬FillsBehind env (c.setBuffer m) := by rwa [fillsBehind_setBuffer]
    have hon' : (c.setBuffer m).onPipe = true := hon
    have hvisit : VisitsPipe (c.setBuffer m) (visit cfg env (c.setBuffer m)) :=
      visit_inside hon' (hstate m) hnot
    exact hvisit.1 i hi

/-- One visit that does not fill the buffer leaves the pointers where the next one expects
them. -/
lemma pipeVisit_pipeState {cfg : Config} {c : Conn} {env : Env}
    (h : c.onPipe = true → PipeState c.req) (hfill : ¬FillsBehind env c) :
    (pipeVisit cfg c env).onPipe = true → PipeState (pipeVisit cfg c env).req := by
  rw [pipeVisit]
  split_ifs with hon
  · exact (visit_inside hon (h hon) hfill).2
  · exact h

/-- **The buffer of a script**: after `init_cgi`, and after any visits none of which has filled
the buffer, the next visit stores no byte behind `req->buffer` if and only if it does not
read all the bytes that it asks the pipe for. -/
theorem pipe_stores_inside_iff (cfg : Config) (c : Conn) (readEnd writeEnd : ℕ)
    (envs : List Env)
    (hruns : Run.Allowed (pipeVisit cfg) (fun c env => ¬FillsBehind env c)
      (initCgiParent (some (readEnd, writeEnd)) c).2 envs)
    (hon : (Run.runs (pipeVisit cfg) (initCgiParent (some (readEnd, writeEnd)) c).2 envs).onPipe
      = true) (env : Env) :
    StoresInside cfg env
        (Run.runs (pipeVisit cfg) (initCgiParent (some (readEnd, writeEnd)) c).2 envs) ↔
      ¬FillsBehind env
        (Run.runs (pipeVisit cfg) (initCgiParent (some (readEnd, writeEnd)) c).2 envs) := by
  have hstate := @Run.runs_invariant Conn Env (pipeVisit cfg) (fun c env => ¬FillsBehind env c)
    (fun c => c.onPipe = true → PipeState c.req)
    (fun c env h hfill => pipeVisit_pipeState h hfill) envs _
    (fun _ => initCgiParent_pipeState readEnd writeEnd c) hruns
  exact storesInside_iff cfg env hon (hstate hon)

/-! ### A listing of 4097 bytes -/

/-- A request for a directory, behind `init_cgi`. -/
def listingRequest : Conn := (initCgiParent (some (5, 6)) { req := { fd := 4, method := .get } }).2

/-- A listing that fills the buffer puts a zero behind it. -/
theorem pipe_stores_behind :
    ¬StoresInside {} { pipeRead := .data (List.replicate 4097 65) } listingRequest := by
  have hstate : PipeState listingRequest.req := initCgiParent_pipeState 5 6 _
  rw [storesInside_iff {} _ rfl hstate, not_not]
  refine ⟨rfl, Or.inl rfl, _, rfl, ?_⟩
  rw [List.length_replicate]
  decide

/-- A short listing keeps inside the buffer. -/
theorem pipe_stores_inside_short :
    StoresInside {} { pipeRead := .data (str "a") }
      (Run.runs (pipeVisit {}) listingRequest [{ pipeRead := .data (str "listing") }]) := by
  have hshort : ∀ c : Conn, c.req.headerEnd.off ≤ 7 → ∀ bs : Bytes, bs.length ≤ 7 →
      ¬FillsBehind { pipeRead := .data bs } c := by
    rintro c hoff bs hlen ⟨-, -, bs', heq, hlt⟩
    cases heq
    rw [bufferSize] at hlt
    omega
  refine (pipe_stores_inside_iff {} { req := { fd := 4, method := .get } } 5 6
    [{ pipeRead := .data (str "listing") }] ?_ ?_ _).mpr ?_
  · exact ⟨hshort _ (by decide) _ (by decide), trivial⟩
  · decide
  · exact hshort _ (by decide) _ (by decide)

end Yabwf
