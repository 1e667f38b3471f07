import Yabwf.Dates

/-!
`log.c`, with `sanitize_log_string` of `util.c`.

* `sanitizeLogString`: it returns a pointer to its static buffer, which the next call fills
  anew.
* `logAccess`, `logErrorDoc`: the arguments of one `printf` are evaluated in some order, and
  printed when all of them have been.
* `sanitized`, `sanitizeLogString_eq`: what one call leaves in the buffer.
* `logAccess_iff`: a line of the access log shows the texts of its request exactly if all of
  them look the same.
-/

namespace Yabwf

open Memory

/-! ### `sanitize_log_string` -/

/-- `LOG_SANITIZE_BUF_SIZE`. -/
def logSanitizeBufSize : ℕ := 2048

/-- A control character other than the tab. -/
def isControl (c : UInt8) : Bool := (c ≤ 0x1F && c != 0x09) || c == 0x7F

/-- What a character is replaced with. -/
def masked (c : UInt8) : UInt8 := if isControl c then 63 else c

/-- The loop of `sanitize_log_string`: what it writes, and what it leaves unread. -/
def sanitizeLoop : Bytes → ℕ → Bytes × Bytes
  | [], _ => ([], [])
  | c :: p, len =>
      if len < logSanitizeBufSize - 4 then
        let res := sanitizeLoop p (len + 1)
        (masked c :: res.1, res.2)
      else ([], c :: p)

/-- What `sanitize_log_string` returns: the literal `(null)`, or its static buffer. -/
inductive LogPtr
  | null
  | buf
  deriving DecidableEq

/-- The string behind the pointer, when the buffer holds `buf`. -/
def LogPtr.string (buf : Bytes) : LogPtr → Bytes
  | .null => str "(null)"
  | .buf => buf

/-- `sanitize_log_string`, with the contents of its static buffer before and after. -/
def sanitizeLogString (s : Option Bytes) (buf : Bytes) : LogPtr × Bytes :=
  match s with
  | none => (.null, buf)
  | some s =>
      let res := sanitizeLoop s 0
      (.buf, if res.2 ≠ [] then res.1 ++ str "..." else res.1)

/-- The arguments of one `printf` that are calls of `sanitize_log_string`: C leaves it open in
which order they are evaluated. The strings are read behind the last call. -/
def printSanitized {n : ℕ} (order : Equiv.Perm (Fin n)) (args : Fin n → Option Bytes)
    (buf : Bytes) : Fin n → Bytes :=
  let last := (List.ofFn order).foldl (fun buf i => (sanitizeLogString (args i) buf).2) buf
  fun i => (sanitizeLogString (args i) buf).1.string last

/-! ### `log.c` -/

/-- What the lines of the logs depend on besides the request: `access_log_name`, the time and
how it is printed, the static buffer, and the orders in which arguments are evaluated. -/
structure LogEnv where
  accessLogName : Option Bytes := some []
  time : Tm := gmtime 0
  color : Bool := false
  buf : Bytes := []
  order : Equiv.Perm (Fin 3) := 1
  orderDoc : Equiv.Perm (Fin 2) := 1

/-- What a line of the access log is printed from. -/
structure AccessLine where
  /-- The address or the name of the host in front of the line. -/
  host : Option Bytes
  remoteIpAddr : Bytes
  time : Bytes
  logline : Bytes
  responseStatus : ℤ
  bytesWritten : ℤ
  referer : Bytes
  userAgent : Bytes

/-- `"%s "` and `"%s - - %s\"%s\" %d %ld \"%s\" \"%s\"\\n"`. -/
def AccessLine.text (l : AccessLine) : Bytes :=
  (match l.host with
    | none => []
    | some host => host ++ str " ")
  ++ l.remoteIpAddr ++ str " - - " ++ l.time ++ str "\"" ++ l.logline ++ str "\" "
  ++ decimal l.responseStatus ++ str " " ++ decimal l.bytesWritten ++ str " \"" ++ l.referer
  ++ str "\" \"" ++ l.userAgent ++ str "\"\n"

/-- The host that the logs print in front of a line: the address, or the sanitized name. -/
def logHost (cfg : Config) (r : Request) (buf : Bytes) : Option Bytes × Bytes :=
  if cfg.virtualhost then (some r.localIpAddr, buf)
  else if cfg.vhostRoot ≠ none then
    let res := sanitizeLogString (some (r.host.getD (str "(null)"))) buf
    (some (res.1.string res.2), res.2)
  else (none, buf)

/-- `req->logline`. -/
def Request.loglineString (r : Request) : Option Bytes :=
  if r.logline then some (r.streamString 0) else none

/-- The texts that `log_access` has sanitized: the request line, the referer and the user agent,
with `-` for a missing one. -/
def Request.accessTexts (r : Request) : Fin 3 → Bytes :=
  ![r.loglineString.getD (str "-"), (r.headerReferer.map r.streamString).getD (str "-"),
    (r.headerUserAgent.map r.streamString).getD (str "-")]

/-- `log_access`. -/
def logAccess (cfg : Config) (log : LogEnv) (r : Request) : Option AccessLine :=
  if log.accessLogName = none then none
  else
    let host := logHost cfg r log.buf
    let args := printSanitized log.order (fun i => some (r.accessTexts i)) host.2
    some
      { host := host.1
        remoteIpAddr := r.remoteIpAddr
        time := getCommonlogTime log.color log.time
        logline := args 0
        responseStatus := r.responseStatus
        bytesWritten := toSigned 64 r.bytesWritten
        referer := args 1
        userAgent := args 2 }

/-- A piece of what is written to the error log: a text of the server, or one that comes from a
client or a script, as it is printed. -/
inductive LogPiece
  | own (text : Bytes)
  | taken (text : Bytes)

/-- The host in front of a line of the error log. -/
def logFront (cfg : Config) (host : Option Bytes) : List LogPiece :=
  match host with
  | none => []
  | some text => [if cfg.virtualhost then .own text else .taken text, .own (str " ")]

/-- `log_error_doc`. -/
def logErrorDoc (cfg : Config) (log : LogEnv) (r : Request) : List LogPiece :=
  let host := logHost cfg r log.buf
  let line := r.loglineString.getD (str "(null)")
  let path := r.pathname.getD (str "(null)")
  let client := r.remoteIpAddr ++ str " - - " ++ getCommonlogTime log.color log.time
  if cfg.vhostRoot ≠ none then
    let args := printSanitized log.order (fun i =>
      some (![(r.headerHost.map r.streamString).getD (str "(null)"), line, path] i)) host.2
    logFront cfg host.1 ++ [.own (client ++ str "request ["), .taken (args 0), .own (str "] \""),
      .taken (args 1), .own (str "\" (\""), .taken (args 2), .own (str "\"): ")]
  else
    let args := printSanitized log.orderDoc (fun i => some (![line, path] i)) host.2
    logFront cfg host.1 ++ [.own (client ++ str "request \""), .taken (args 0), .own (str "\" (\""),
      .taken (args 1), .own (str "\"): ")]

/-! ### What one call leaves in the buffer -/

/-- A string with its control characters masked, cut to what fits the buffer, with dots if
something is cut off. -/
def sanitized (s : Bytes) : Bytes :=
  (s.take (logSanitizeBufSize - 4)).map masked
    ++ if logSanitizeBufSize - 4 < s.length then str "..." else []

lemma sanitizeLoop_eq (s : Bytes) {len : ℕ} (h : len ≤ logSanitizeBufSize - 4) :
    sanitizeLoop s len = ((s.take (logSanitizeBufSize - 4 - len)).map masked,
      s.drop (logSanitizeBufSize - 4 - len)) := by
  induction s generalizing len with
  | nil => simp [sanitizeLoop]
  | cons c s ih =>
      rw [sanitizeLoop]
      by_cases hroom : len < logSanitizeBufSize - 4
      · obtain ⟨k, hk⟩ : ∃ k, logSanitizeBufSize - 4 - len = k + 1 :=
          ⟨logSanitizeBufSize - 4 - (len + 1), by omega⟩
        have hrest : logSanitizeBufSize - 4 - (len + 1) = k := by omega
        rw [if_pos hroom, ih (by omega), hrest, hk, List.take_succ_cons, List.drop_succ_cons,
          List.map_cons]
      · have hfull : logSanitizeBufSize - 4 - len = 0 := by omega
        rw [if_neg hroom, hfull, List.take_zero, List.drop_zero, List.map_nil]

/-- `sanitize_log_string` does what its comment says, until its next call. -/
lemma sanitizeLogString_eq (s buf : Bytes) :
    sanitizeLogString (some s) buf = (.buf, sanitized s) := by
  rw [sanitizeLogString, sanitizeLoop_eq s (Nat.zero_le _), sanitized, Nat.sub_zero]
  dsimp only
  have hcut : s.drop (logSanitizeBufSize - 4) ≠ [] ↔ logSanitizeBufSize - 4 < s.length := by
    rw [ne_eq, List.drop_eq_nil_iff, not_le]
  by_cases hlong : logSanitizeBufSize - 4 < s.length
  · rw [if_pos (hcut.mpr hlong), if_pos hlong]
  · rw [if_neg (fun h => hlong (hcut.mp h)), if_neg hlong, List.append_nil]

/-- Nothing of a sanitized string is a control character. -/
lemma isControl_of_mem_sanitized {s : Bytes} : ∀ c ∈ sanitized s, isControl c = false := by
  intro c hc
  have hdots : ∀ c ∈ str "...", isControl c = false := by decide +kernel
  rcases List.mem_append.mp hc with hc | hc
  · obtain ⟨b, -, rfl⟩ := List.mem_map.mp hc
    rw [masked]
    split_ifs with hb
    · rfl
    · exact Bool.eq_false_iff.mpr hb
  · split_ifs at hc
    · exact hdots c hc
    · cases hc

lemma linefeed_notMem_sanitized (s : Bytes) : 10 ∉ sanitized s := fun h =>
  absurd (isControl_of_mem_sanitized 10 h) (by decide)

/-- All sanitized arguments of one `printf` show the text of the one that is evaluated last. -/
lemma printSanitized_eq {n : ℕ} (order : Equiv.Perm (Fin (n + 1))) (args : Fin (n + 1) → Bytes)
    (buf : Bytes) (i : Fin (n + 1)) :
    printSanitized order (fun i => some (args i)) buf i
      = sanitized (args (order (Fin.last n))) := by
  rw [printSanitized]
  dsimp only
  rw [sanitizeLogString_eq, List.ofFn_succ', List.concat_eq_append, List.foldl_append]
  exact congrArg Prod.snd (sanitizeLogString_eq _ _)

/-- The host that is printed in front of a line. -/
lemma logHost_eq (cfg : Config) (r : Request) (buf : Bytes) :
    (logHost cfg r buf).1 = if cfg.virtualhost then some r.localIpAddr
      else if cfg.vhostRoot ≠ none then some (sanitized (r.host.getD (str "(null)")))
      else none := by
  rw [logHost, sanitizeLogString_eq]
  split_ifs <;> rfl

/-- A piece of the log without a control character that comes from a client or a script. -/
def LogPiece.Clean : LogPiece → Prop
  | .own _ => True
  | .taken text => ∀ c ∈ text, isControl c = false

/-- What `log_error_doc` writes is clean: the fields show some sanitized text, if not their
own. -/
lemma logErrorDoc_clean (cfg : Config) (log : LogEnv) (r : Request) :
    ∀ p ∈ logErrorDoc cfg log r, p.Clean := by
  have hown (text : Bytes) : (LogPiece.own text).Clean := trivial
  have hshown (s : Bytes) : (LogPiece.taken (sanitized s)).Clean :=
    fun c hc => isControl_of_mem_sanitized c hc
  have hfront : ∀ p ∈ logFront cfg (logHost cfg r log.buf).1, p.Clean := by
    rw [logHost_eq]
    split_ifs with hv hroot
    · simp [logFront, hv, hown]
    · simp [logFront, hv, hown, hshown]
    · simp [logFront]
  rw [logErrorDoc]
  split_ifs
  · simp only [printSanitized_eq, List.forall_mem_append, List.forall_mem_cons, hown, hshown,
      true_and]
    exact ⟨hfront, List.forall_mem_nil _⟩
  · simp only [printSanitized_eq, List.forall_mem_append, List.forall_mem_cons, hown, hshown,
      true_and]
    exact ⟨hfront, List.forall_mem_nil _⟩

/-! ### The access log -/

/-- A numeric host, as `getnameinfo` and `inet_ntoa` write it: printable characters. -/
def AddressText (b : Bytes) : Prop := ∀ c ∈ b, 33 ≤ c ∧ c ≤ 126

lemma AddressText.linefeed_notMem {b : Bytes} (h : AddressText b) : 10 ∉ b := fun hmem =>
  absurd (h 10 hmem).1 (by decide)

/-- `printf` writes digits. -/
lemma linefeed_notMem_itoaLoop (fuel i : ℕ) {acc : Bytes} (h : 10 ∉ acc) :
    10 ∉ itoaLoop fuel i acc := by
  induction fuel generalizing i acc with
  | zero => exact h
  | succ fuel ih =>
      have hdigit : 10 ∉ UInt8.ofNat (48 + i % 10) :: acc := by
        rw [List.mem_cons, not_or]
        refine ⟨fun heq => ?_, h⟩
        have hdig := isDigit_digit (Nat.mod_lt i (by norm_num : 0 < 10))
        rw [← heq] at hdig
        cases hdig
      rw [itoaLoop]
      split_ifs
      · exact hdigit
      · exact ih _ hdigit

lemma linefeed_notMem_decimal (i : ℤ) : 10 ∉ decimal i := by
  rw [decimal, List.mem_append, not_or]
  refine ⟨?_, linefeed_notMem_itoaLoop _ _ (List.not_mem_nil)⟩
  split_ifs
  · decide
  · exact List.not_mem_nil

lemma linefeed_notMem_padded {pad : UInt8} (hpad : pad ≠ 10) (w : ℕ) (i : ℤ) :
    10 ∉ padded pad w i := by
  rw [padded, List.mem_append, not_or]
  exact ⟨fun h => hpad (List.eq_of_mem_replicate h).symm, linefeed_notMem_decimal i⟩

lemma linefeed_notMem_getCommonlogTime (color : Bool) (lc : Tm) :
    10 ∉ getCommonlogTime color lc := by
  have hblank (w : ℕ) (i : ℤ) : 10 ∉ padded 32 w i := linefeed_notMem_padded (by decide) w i
  have hzero (w : ℕ) (i : ℤ) : 10 ∉ padded 48 w i := linefeed_notMem_padded (by decide) w i
  have hday : ∀ day ∈ wdayTab, 10 ∉ day := by decide
  have hname : 10 ∉ wdayTab.getD lc.wday.toNat [] := by
    rw [List.getD_eq_getElem?_getD]
    cases h : wdayTab[lc.wday.toNat]? with
    | none => exact List.not_mem_nil
    | some day => exact hday day (List.mem_of_getElem? h)
  have hlit : 10 ∉ str "[" ∧ 10 ∉ str "-" ∧ 10 ∉ str " " ∧ 10 ∉ str ":" ∧ 10 ∉ str "] " := by
    decide
  have hcolor : 10 ∉ colorCode color "[36m" ∧ 10 ∉ colorCode color "[32m" ∧
      10 ∉ colorCode color "[34m" ∧ 10 ∉ colorCode color "[0m" := by
    cases color <;> decide
  rw [getCommonlogTime]
  simp only [List.mem_append, not_or]
  simp only [hblank, hzero, hname, hlit, hcolor, not_false_eq_true, and_self]

/-- A line of the access log is as it should be: it ends with its only line feed, and it shows
the sanitized host of a server with named hosts, and the three sanitized texts of its request. -/
structure AccessLine.Faithful (l : AccessLine) (cfg : Config) (r : Request) : Prop where
  oneLine : ∃ line, l.text = line ++ [10] ∧ 10 ∉ line
  host : cfg.virtualhost = false → cfg.vhostRoot ≠ none →
    l.host = some (sanitized (r.host.getD (str "(null)")))
  logline : l.logline = sanitized (r.loglineString.getD (str "-"))
  referer : l.referer = sanitized ((r.headerReferer.map r.streamString).getD (str "-"))
  userAgent : l.userAgent = sanitized ((r.headerUserAgent.map r.streamString).getD (str "-"))

/-- The line ends with its only line feed if its parts have none. -/
lemma AccessLine.oneLine_of {l : AccessLine} (hhost : ∀ h ∈ l.host, 10 ∉ h)
    (hremote : 10 ∉ l.remoteIpAddr) (htime : 10 ∉ l.time) (hlogline : 10 ∉ l.logline)
    (hreferer : 10 ∉ l.referer) (hagent : 10 ∉ l.userAgent) :
    ∃ line, l.text = line ++ [10] ∧ 10 ∉ line := by
  have hlit : 10 ∉ str " " ∧ 10 ∉ str " - - " ∧ 10 ∉ str "\"" ∧ 10 ∉ str "\" " ∧ 10 ∉ str " \"" ∧
      10 ∉ str "\" \"" := by decide
  have hfront : 10 ∉ (match l.host with
      | none => []
      | some host => host ++ str " ") := by
    cases hl : l.host with
    | none => exact List.not_mem_nil
    | some host => simp only [List.mem_append, not_or, hhost host hl, hlit, not_false_eq_true,
        and_self]
  have hend : str "\"\n" = str "\"" ++ [10] := by decide
  rw [AccessLine.text, hend, ← List.append_assoc]
  refine ⟨_, rfl, ?_⟩
  simp only [List.mem_append, not_or, hfront, hremote, htime, hlogline, hreferer, hagent, hlit,
    linefeed_notMem_decimal, not_false_eq_true, and_self]

/-- The line of `log_access` for a request. -/
def LogsFaithfully (cfg : Config) (log : LogEnv) (r : Request) : Prop :=
  ∀ l, logAccess cfg log r = some l → l.Faithful cfg r

/-- The request line, the referer and the user agent look the same when they are sanitized. -/
def Request.SameTexts (r : Request) : Prop :=
  ∀ i, sanitized (r.accessTexts i) = sanitized (r.accessTexts 0)

/-- **The access log shows the texts of each request** if and only if it is not written, or the
three texts look the same: they all are the one that is sanitized last. -/
theorem logAccess_iff {cfg : Config} {log : LogEnv} {r : Request}
    (hlocal : AddressText r.localIpAddr) (hremote : AddressText r.remoteIpAddr) :
    LogsFaithfully cfg log r ↔ log.accessLogName = none ∨ r.SameTexts := by
  rw [LogsFaithfully, logAccess]
  by_cases hname : log.accessLogName = none
  · rw [if_pos hname]
    exact iff_of_true (fun l h => by cases h) (Or.inl hname)
  rw [if_neg hname, or_iff_right hname]
  have hargs (i : Fin 3) := printSanitized_eq log.order r.accessTexts (logHost cfg r log.buf).2 i
  dsimp only
  rw [hargs 0, hargs 1, hargs 2]
  generalize log.order (Fin.last 2) = last
  constructor
  · intro h
    have hline := h _ rfl
    have hzero : sanitized (r.accessTexts last) = sanitized (r.accessTexts 0) := hline.logline
    have hone : sanitized (r.accessTexts last) = sanitized (r.accessTexts 1) := hline.referer
    have htwo : sanitized (r.accessTexts last) = sanitized (r.accessTexts 2) := hline.userAgent
    intro i
    fin_cases i
    · rfl
    · exact hone.symm.trans hzero
    · exact htwo.symm.trans hzero
  · intro h l hl
    obtain rfl := Option.some.inj hl
    have hlast : ∀ i, sanitized (r.accessTexts last) = sanitized (r.accessTexts i) := fun i =>
      (h last).trans (h i).symm
    refine ⟨AccessLine.oneLine_of ?_ hremote.linefeed_notMem
      (linefeed_notMem_getCommonlogTime _ _) (linefeed_notMem_sanitized _)
      (linefeed_notMem_sanitized _) (linefeed_notMem_sanitized _), fun hv hroot => ?_,
      hlast 0, hlast 1, hlast 2⟩
    · dsimp only
      rw [logHost_eq]
      intro host hhost
      split_ifs at hhost
      · obtain rfl := Option.some.inj hhost
        exact hlocal.linefeed_notMem
      · obtain rfl := Option.some.inj hhost
        exact linefeed_notMem_sanitized _
      · cases hhost
    · dsimp only
      rw [logHost_eq, if_neg (by simp [hv]), if_pos hroot]

/-- A request that has not got as far as its first line is logged with three dashes. -/
theorem logAccess_dashes : LogsFaithfully {} {} { fd := 4 } :=
  (logAccess_iff (by simp [AddressText]) (by simp [AddressText])).mpr (Or.inr (by
    intro i
    fin_cases i <;> rfl))

/-- A request of a client that names itself. -/
def namedRequest : Request where
  fd := 4
  logline := true
  clientStream := Mem.store (fun _ => 0) 0 (str "GET /" ++ [0] ++ str "curl")
  headerUserAgent := some 6

/-- Its line shows three times the text that is sanitized last. -/
theorem logAccess_not_faithful : ¬ ∀ cfg log r, AddressText r.localIpAddr →
    AddressText r.remoteIpAddr → LogsFaithfully cfg log r := by
  intro h
  have hline := h {} {} namedRequest (by simp [AddressText, namedRequest])
    (by simp [AddressText, namedRequest]) _ rfl
  have hshown := hline.logline
  revert hshown
  decide +kernel

end Yabwf
