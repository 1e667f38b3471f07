import Yabwf.Log
import Yabwf.Process

/-!
The messages of `read_header`, `process_logline`, `process_option_line`, `process_header_end`
and `process_cgi_header` in the error log.

* `Fault`: why one of them gives a request up, with the text of the client or the script that
  its message quotes; `Fault.message`.
* `processLoglineFault`, `headerByteFault`, `processHeaderEndFault`, `processCgiHeaderFault`: the
  faults of the functions, in the order of their checks.
* `visitFaults`, `errorLog`: the faults of one visit, and what is written about them.
* `processLogline_gives_up_iff`, `headerByte_of_fault`: a line with a fault ends the request.
-/

namespace Yabwf

open Memory

/-- Why a request is given up. -/
inductive Fault
  | illegalByte (uc : UInt8)
  | headerTooLong (length : ℕ) (line : Bytes)
  | tooShort (line : Bytes)
  | malformed (line : Bytes)
  | uriTooLong (line : Bytes)
  | noHost
  | noUrl (line : Bytes)
  | badVersion (version : Bytes)
  | oldHead
  | noColon (line : Bytes)
  | noLogline
  | bogusUri
  | noSlash
  | badHost
  | denied (uri : Bytes)
  | closeOnExec
  | noLength
  | badLength (value : Bytes)
  | lengthLimit (length limit : ℤ)
  | noSpace
  | readError
  | closed
  | noBlankLine
  | locationPath (value : Bytes)
  | locationOther (value : Bytes)
  | tooMuchData
  deriving DecidableEq

/-- The strings of `errno`, which the C library appends to a message. -/
abbrev Strerror := Bytes

/-- `— only http:// and https:// URLs are allowed`, with the dash in UTF-8. -/
def locationAdvice : Bytes :=
  str "\" " ++ [0xE2, 0x80, 0x94] ++ str " only http:// and https:// URLs are allowed\n"

/-- What is written about a fault, behind the beginning of the line. -/
def Fault.message (errno : Strerror) : Fault → List LogPiece
  | .illegalByte uc => [.own (str "Illegal character (" ++ decimal uc.toNat ++ str ") in stream.\n")]
  | .headerTooLong length line =>
      [.own (str "Header too long at " ++ decimal length ++ str " bytes: \""), .taken line,
        .own (str "\"\n")]
  | .tooShort line => [.own (str "Request too short: \""), .taken line, .own (str "\"\n")]
  | .malformed line => [.own (str "malformed request: \""), .taken line, .own (str "\"\n")]
  | .uriTooLong line =>
      [.own (str "URI too long " ++ decimal maxHeaderLength ++ str ": \""), .taken line,
        .own (str "\"\n")]
  | .noHost => [.own (str "bogus absolute URI\n")]
  | .noUrl line => [.own (str "no URL in absolute URI: \""), .taken line, .own (str "\"\n")]
  | .badVersion version =>
      [.own (str "bogus HTTP version: \""), .taken version, .own (str "\"\n")]
  | .oldHead => [.own (str "method is HEAD but version is HTTP/0.9")]
  | .noColon line => [.own (str "header \""), .taken line, .own (str "\" does not contain ':'\n")]
  | .noLogline => [.own (str "No logline in process_header_end\n")]
  | .bogusUri => [.own (str "URI contains bogus characters\n")]
  | .noSlash => [.own (str "URI does not begin with '/'\n")]
  | .badHost => [.own (str "host invalid!\n")]
  | .denied uri => [.own (str "Access denied for URI: "), .taken uri, .own (str "\n")]
  | .closeOnExec =>
      [.own (str "unable to set close-on-exec for req->post_data_fd!: " ++ errno ++ str "\n")]
  | .noLength => [.own (str "Unknown Content-Length POST!\n")]
  | .badLength value =>
      [.own (str "Invalid Content-Length ["), .taken value, .own (str "] on POST!\n")]
  | .lengthLimit length limit =>
      [.own (str "Content-Length [" ++ decimal length ++ str "] > SinglePostLimit ["
        ++ decimal limit ++ str "] on POST!\n")]
  | .noSpace => [.own (str "No space left in client stream buffer, closing\n")]
  | .readError => [.own (str "header read: " ++ errno ++ str "\n")]
  | .closed => [.own (str "client unexpectedly closed connection.\n")]
  | .noBlankLine => [.own (str "cgi_header: unable to find LFLF\n")]
  | .locationPath value =>
      [.own (str "SECURITY: Location header with absolute path rejected: \""), .taken value,
        .own locationAdvice]
  | .locationOther value =>
      [.own (str "SECURITY: Location header with non-URL value rejected: \""), .taken value,
        .own locationAdvice]
  | .tooMuchData => [.own (str "Too much data to move! Aborting! cgi_header.c 437\n")]

/-- The messages that begin with the time alone, and not with `log_error_doc`. -/
def Fault.timeOnly : Fault → Bool
  | .oldHead | .noSlash => true
  | _ => false

/-! ### The request line and the header -/

/-- The faults of `process_logline`, with the request at that point. -/
def processLoglineFault (r : Request) : Option (Request × Fault) :=
  let r := { r with logline := true }
  let line := r.streamString 0
  if line.length < 5 then some (r, .tooShort line)
  else
    match parseMethod line with
    | none => some (r, .malformed line)
    | some method =>
        let r := { r with method := method, httpVersion := .http10 }
        let blank := if method = .get then 4 else 5
        let start := blank + ((line.drop blank).takeWhile (· == 32)).length
        let target := (line.drop start).takeWhile (· != 32)
        let rest := (line.drop start).dropWhile (· != 32)
        if maxHeaderLength < target.length then some (r, .uriTooLong line)
        else
          match storeTarget r start target with
          | none =>
              if (target.drop 7).takeWhile (· != 47) = [] then some (r, .noHost)
              else some (r, .noUrl line)
          | some r =>
              match parseVersion rest with
              | none => some (r, .badVersion (rest.dropWhile (· == 32)))
              | some version =>
                  if r.method = .head ∧ version = .http09 then some (r, .oldHead) else none

/-- The fault of `process_option_line`. What fails behind the colon is logged elsewhere, if at
all. -/
def processOptionLineFault (r : Request) : Option (Request × Fault) :=
  let s := r.streamString r.headerLine.off
  if strchr 58 s = none then some (r, .noColon s) else none

/-- The faults of `read_header` at the end of a line. -/
def headerLineFault (r : Request) : Option (Request × Fault) :=
  let r := { r with clientStream := r.clientStream.store r.headerEnd.off [0] }
  if maxHeaderLength ≤ r.headerEnd.off - r.headerLine.off then
    some (r, .headerTooLong (r.headerEnd.off - r.headerLine.off) (r.streamString r.headerLine.off))
  else if r.logline then processOptionLineFault r
  else processLoglineFault r

/-- The request behind one byte of the loop in `read_header`. -/
def Request.pastByte (r : Request) : Request :=
  let uc := r.clientStream r.parsePos
  { r with
    status := headerStatus r.status uc
    headerEnd :=
      if r.status = .readHeader ∧ (uc = 13 ∨ uc = 10) then ⟨.clientStream, r.parsePos⟩
      else r.headerEnd
    parsePos := r.parsePos + 1 }

/-- The faults of one round of the loop in `read_header`. -/
def headerByteFault (r : Request) : Option (Request × Fault) :=
  if illegalByte (r.clientStream r.parsePos) then
    some (r, .illegalByte (r.clientStream r.parsePos))
  else if r.pastByte.status = .oneLf then headerLineFault r.pastByte
  else none

/-! ### The end of the header -/

/-- The faults of `process_header_end` from the translation of the URI on. What fails in
`translate_uri`, `create_temporary_file`, `init_cgi` or `init_get` is logged there. -/
def translateFault (cfg : Config) (env : Env) (r : Request) : Option (Request × Fault) :=
  let t := translateUri cfg env env.scriptBuf r
  if !t.ret then none
  else if accessDenied cfg t.req then some (t.req, .denied t.req.requestUri)
  else
    let fd := (createTemporaryFile env { req := t.req }).1
    if t.req.method = .post ∧ fd ≠ 0 ∧ !env.fcntlOk then
      some ({ t.req with postDataFd := fd }, .closeOnExec)
    else none

/-- The faults of `process_header_end`. -/
def processHeaderEndFault (cfg : Config) (env : Env) (r : Request) : Option (Request × Fault) :=
  if !r.logline then some (r, .noLogline)
  else
    match unescapeUri r.requestUri true with
    | (false, _) => some (r, .bogusUri)
    | (true, uri, query) =>
        let r := r.decoded uri query
        if r.requestUri.head? ≠ some 47 then some (r, .noSlash)
        else if cfg.vhostRoot = none then translateFault cfg env r
        else
          let r := r.hosted cfg
          if checkHost (r.host.getD []) < 1 then some (r, .badHost)
          else translateFault cfg env r

/-- The faults of `read_header` in the length of a body. -/
def headerPostFault (cfg : Config) (r : Request) : Option (Request × Fault) :=
  match r.contentLength with
  | none => some (r, .noLength)
  | some off =>
      let contentLength := boaAtoi (r.streamString off)
      if contentLength < 0 then some (r, .badLength (r.streamString off))
      else if cfg.singlePostLimit ≠ 0 ∧ cfg.singlePostLimit < contentLength then
        some (r, .lengthLimit contentLength cfg.singlePostLimit)
      else none

/-- The faults of `read_header` behind the blank line. -/
def headerBlankLineFaults (cfg : Config) (env : Env) (c : Conn) : List (Request × Fault) :=
  (processHeaderEndFault cfg env c.req).toList
    ++ match processHeaderEnd cfg env c with
      | (retval, c) =>
          if retval ≠ 0 ∧ c.req.method = .post then (headerPostFault cfg c.req).toList else []

/-- The faults of the `read` in `read_header`. -/
def readHeaderMoreFault (cfg : Config) (env : Env) (r : Request) : Option (Request × Fault) :=
  let left := clientStreamSize - r.clientStreamPos
  if left < 1 then some (r, .noSpace)
  else
    match env.sockRead with
    | .intr => none
    | .again => none
    | .error => some (r, .readError)
    | .data bs =>
        if bs.take left = [] then
          -- a kept connection on which nothing has come may end quietly
          if r.kacount < cfg.kaMax ∧ !r.logline ∧ r.clientStreamPos = 0 then none
          else some (r, .closed)
        else none

/-- The faults of the loop in `read_header`, and of the calls that end it. -/
def readHeaderLoopFaults (cfg : Config) (env : Env) : ℕ → Conn → List (Request × Fault)
  | 0, _ => []
  | n + 1, c =>
      (headerByteFault c.req).toList
        ++ match headerByte cfg env c with
          | .more c => readHeaderLoopFaults cfg env n c
          | .ret _ _ => []
          | .loglineEnd c => (processHeaderEndFault cfg env c.req).toList
          | .blankLine c => headerBlankLineFaults cfg env c

/-- The faults of `read_header`. -/
def readHeaderFaults (cfg : Config) (env : Env) (c : Conn) : List (Request × Fault) :=
  readHeaderLoopFaults cfg env (c.req.clientStreamPos - c.req.parsePos) c
    ++ match readHeaderLoop cfg env (c.req.clientStreamPos - c.req.parsePos) c with
      | .more c =>
          if c.req.status.code < ReqStatus.bodyRead.code then
            (readHeaderMoreFault cfg env c.req).toList
          else []
      | _ => []

/-! ### The output of a script -/

/-- A location that `process_cgi_header` refuses. -/
def locationFault (r : Request) (value : Bytes) : Option (Request × Fault) :=
  if value.head? = some 47 then some (r, .locationPath value)
  else if hasPrefixCase (str "http://") value ∨ hasPrefixCase (str "https://") value then none
  else some (r, .locationOther value)

/-- The fault of `process_cgi_header` when the header of the script is to be merged. -/
def cgiMergeFault (cfg : Config) (env : Env) (blank : ℕ) (c : Conn) : Option (Request × Fault) :=
  let c := sendRRequestOk cfg env c
  let c :=
    if c.req.method = .head then
      c.upd fun r => { r with
        headerEnd := ⟨.buffer, behindLine r blank⟩
        cgiStatus := .done }
    else c
  if bufferSize < c.req.bufferEnd + (c.req.headerEnd.off - c.req.headerLine.off) then
    some (c.req, .tooMuchData)
  else none

/-- The faults of `process_cgi_header`. -/
def processCgiHeaderFault (cfg : Config) (env : Env) (c : Conn) : Option (Request × Fault) :=
  let c := c.upd fun r => { r with
    cgiStatus := if r.cgiStatus = .done then .done else .buffer }
  let buf := c.req.headerLine.off
  match findBlankLine (c.req.bufferString buf) with
  | none => some (c.req, .noBlankLine)
  | some k =>
      if c.req.httpVersion = .http09 then none
      else if hasPrefixCase (str "Status: ") (c.req.bufferString buf) then none
      else if hasPrefixCase (str "Location: ") (c.req.bufferString buf) then
        locationFault c.req (c.req.bufferString (buf + 10))
      else cgiMergeFault cfg env (buf + k) c

/-- The faults of `process_cgi_header` as `read_from_pipe` calls it. -/
def readFromPipeFault (cfg : Config) (env : Env) (c : Conn) : Option (Request × Fault) :=
  let off := c.req.headerEnd.off
  let bytesToRead := bufferSize + 1 - off
  let terminate (c : Conn) : Conn :=
    c.upd fun r => { r with buffer := r.buffer.store r.headerEnd.off [0] }
  if bytesToRead = 0 then
    if c.req.cgiStatus = .parse then
      processCgiHeaderFault cfg env (terminate (c.upd fun r => { r with cgiStatus := .buffer }))
    else none
  else
    match env.pipeRead with
    | .data bs =>
        let bs := bs.take bytesToRead
        let c := c.upd fun r => { r with buffer := r.buffer.store off (bs ++ [0]) }
        if bs = [] then
          if c.req.cgiStatus = .parse then
            processCgiHeaderFault cfg env (c.upd fun r => { r with
              status := .pipeWrite
              cgiStatus := .done })
          else none
        else
          let c := c.upd fun r => { r with headerEnd := r.headerEnd.add bs.length }
          if c.req.cgiStatus ≠ .parse then none
          else if findBlankLine (c.req.bufferString c.req.headerLine.off) = none then none
          else
            processCgiHeaderFault cfg env
              (terminate (c.upd fun r => { r with cgiStatus := .done }))
    | _ => none

/-! ### One visit -/

/-- The faults of one visit of `process_requests`. -/
def visitFaults (cfg : Config) (env : Env) (c : Conn) : List (Request × Fault) :=
  let res := flushFirst { c with tape := env.sock }
  if res.1 = 1 then
    match res.2.req.status with
    | .readHeader | .oneCr | .oneLf | .twoCr => readHeaderFaults cfg env res.2
    | .pipeRead => (readFromPipeFault cfg env res.2).toList
    | _ => []
  else []

/-- What is written about a fault. -/
def faultLog (cfg : Config) (log : LogEnv) (errno : Strerror) (f : Request × Fault) :
    List LogPiece :=
  (if f.2.timeOnly then [.own (getCommonlogTime log.color log.time)]
    else logErrorDoc cfg log f.1) ++ f.2.message errno

/-- What the five functions write to the error log in one visit. -/
def errorLog (cfg : Config) (log : LogEnv) (errno : Strerror) (env : Env) (c : Conn) :
    List LogPiece :=
  (visitFaults cfg env c).flatMap (faultLog cfg log errno)

/-! ### Giving up -/

section

variable {c : Conn}

lemma loglineVersion_gives_up_iff (cfg : Config) (env : Env) (s : Bytes) (c : Conn) :
    (loglineVersion cfg env s c).1 = false ↔ ∀ version, parseVersion s = some version →
      c.req.method = .head ∧ version = .http09 := by
  rw [loglineVersion]
  cases parseVersion s with
  | none => exact iff_of_true rfl fun version h => by cases h
  | some version =>
      dsimp -zeta only
      extract_lets d
      have hmethod : d.req.method = c.req.method := rfl
      clear_value d
      rw [hmethod]
      by_cases hold : c.req.method = .head ∧ version = .http09
      · rw [if_pos hold]
        exact iff_of_true rfl fun version' h => Option.some.inj h ▸ hold
      · rw [if_neg hold]
        exact iff_of_false (by simp) fun h => hold (h version rfl)

/-- `process_logline` gives a request up exactly when it says why. -/
lemma processLogline_gives_up_iff (cfg : Config) (env : Env) (c : Conn) :
    (processLogline cfg env c).1 = false ↔ (processLoglineFault c.req).isSome = true := by
  unfold processLogline processLoglineFault
  extract_lets d line r line'
  have hline : line = line' := rfl
  rw [hline]
  clear_value line'
  by_cases hshort : line'.length < 5
  · rw [if_pos hshort, if_pos hshort]
    exact iff_of_true rfl rfl
  rw [if_neg hshort, if_neg hshort]
  cases parseMethod line' with
  | none => exact iff_of_true rfl rfl
  | some method =>
      dsimp -zeta only
      extract_lets e blank start target rest r' start' target' rest'
      have hr' : e.req = r' := rfl
      have hstart : start = start' := rfl
      have htarget : target = target' := rfl
      have hrest : rest = rest' := rfl
      rw [hstart, htarget, hrest]
      clear_value target' rest' start'
      by_cases hlong : maxHeaderLength < target'.length
      · rw [if_pos hlong, if_pos hlong]
        exact iff_of_true rfl rfl
      rw [if_neg hlong, if_neg hlong, hr']
      cases storeTarget r' start' target' with
      | none =>
          dsimp only
          split_ifs <;> exact iff_of_true rfl rfl
      | some r'' =>
          dsimp only
          rw [loglineVersion_gives_up_iff]
          cases parseVersion rest' with
          | none => exact iff_of_true (fun version h => by cases h) rfl
          | some version =>
              dsimp only
              split_ifs with hold
              · exact iff_of_true (fun version' h => Option.some.inj h ▸ hold) rfl
              · exact iff_of_false (fun h => hold (h version rfl)) (by simp)

lemma processOptionLine_of_fault {cfg : Config} {env : Env}
    (h : (processOptionLineFault c.req).isSome = true) :
    (processOptionLine cfg env c).1 = false := by
  unfold processOptionLineFault at h
  extract_lets s at h
  unfold processOptionLine
  extract_lets line s'
  have hs : s' = s := rfl
  rw [hs]
  clear_value s
  by_cases hcolon : strchr 58 s = none
  · rw [hcolon]
  · rw [if_neg hcolon] at h
    cases h

/-- A fault in a line ends the loop of `read_header`. -/
lemma headerByte_of_fault {cfg : Config} {env : Env} (h : (headerByteFault c.req).isSome = true) :
    ∃ d, headerByte cfg env c = .ret 0 d := by
  rw [headerByteFault] at h
  unfold headerByte
  extract_lets uc d
  have hd : d.req = c.req.pastByte := rfl
  clear_value d
  by_cases hillegal : illegalByte uc = true
  · rw [if_pos hillegal]
    exact ⟨_, rfl⟩
  rw [if_neg (show ¬illegalByte (c.req.clientStream c.req.parsePos) = true from hillegal)] at h
  rw [if_neg hillegal, hd]
  by_cases hlf : c.req.pastByte.status = .oneLf
  swap
  · rw [if_neg hlf] at h
    cases h
  rw [if_pos hlf, ← hd] at h
  rw [if_pos hlf]
  unfold headerLineFault at h
  extract_lets r at h
  unfold headerLineEnd
  extract_lets e
  have he : e.req = r := rfl
  rw [← he] at h
  clear_value e
  by_cases hlong : maxHeaderLength ≤ e.req.headerEnd.off - e.req.headerLine.off
  · rw [if_pos hlong]
    exact ⟨_, rfl⟩
  rw [if_neg hlong] at h ⊢
  cases hline : e.req.logline with
  | true =>
      rw [if_pos hline] at h
      rw [if_pos rfl]
      have hfalse : (processOptionLine cfg env e).1 = false := processOptionLine_of_fault h
      generalize processOptionLine cfg env e = res at hfalse ⊢
      obtain ⟨ret, e'⟩ := res
      cases hfalse
      exact ⟨e', rfl⟩
  | false =>
      rw [if_neg (by rw [hline]; exact Bool.false_ne_true)] at h
      rw [if_neg Bool.false_ne_true]
      have hfalse := (processLogline_gives_up_iff cfg env e).mpr h
      generalize processLogline cfg env e = res at hfalse ⊢
      obtain ⟨ret, e'⟩ := res
      cases hfalse
      exact ⟨e', rfl⟩

end

end Yabwf
