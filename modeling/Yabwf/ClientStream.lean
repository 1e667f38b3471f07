import Yabwf.Quoted
import Yabwf.Pipelining
import Yabwf.Standing

/-!
`client_stream` as a receive buffer.

* `lineZeroes`: the offsets at which `read_header`, `process_option_line` and `process_logline`
  store zeroes at the end of a line.
* `Receives`: the cursors of a request whose header is being read.
* `notedLoop`, `notedStep`: the loop of `read_header` and a step of the connection, beside the note
  whether `header_end` has been set since `header_line` was.
* `headerByte_receives`, `notedLoop_receives`, `notedStep_receives`: a byte, the loop and a step
  keep the cursors in order.
* `clientStream_invariant`: so they are in every run, the zeroes are stored in the line, and
  `sanitize_request` carries over what is left.
-/

namespace Yabwf

open Memory Mem

/-! ### The zeroes of a line -/

/-- The slash behind the host of an absolute URI that begins at the offset `start`. -/
def targetHostEnd (start : ℕ) (target : Bytes) : Option ℕ :=
  if (str "http://").isPrefixOf target then
    let host := (target.drop 7).takeWhile (· != 47)
    let path := (target.drop 7).dropWhile (· != 47)
    if host = [] ∨ path = [] then none else some (start + 7 + host.length)
  else none

/-- The slash of a request line over which `process_logline` stores a zero. -/
def hostEnd (line : Bytes) : Option ℕ :=
  if line.length < 5 then none
  else
    match parseMethod line with
    | none => none
    | some method =>
        let blank := if method = .get then 4 else 5
        let start := blank + ((line.drop blank).takeWhile (· == 32)).length
        let target := (line.drop start).takeWhile (· != 32)
        if maxHeaderLength < target.length then none else targetHostEnd start target

/-- Where zeroes are stored at the end of a line: at `header_end`, and, unless the line is too
long, over the colon of a header or behind the host of a request line. -/
def lineZeroes (r : Request) : List ℕ :=
  [r.headerEnd.off] ++
    if maxHeaderLength ≤ r.headerEnd.off - r.headerLine.off then []
    else if r.logline then
      ((strchr 58 (r.lineEnded.streamString r.headerLine.off)).map (r.headerLine.off + ·)).toList
    else (hostEnd (r.lineEnded.streamString 0)).toList

/-- Zeroes have been stored at these offsets, which lie between `lo` and `hi`, and nothing has been
stored in front of `lo` or from `hi` on. -/
structure ZeroesWithin (lo hi : ℕ) (ps : List ℕ) (m m' : Mem) : Prop where
  inside : ∀ p ∈ ps, lo ≤ p ∧ p < hi
  zero : ∀ p ∈ ps, m' p = 0
  outside : ∀ i, i < lo ∨ hi ≤ i → m' i = m i

section

variable {lo hi p off : ℕ} {ps : List ℕ} {m m' : Mem}

lemma ZeroesWithin.store_zero (hlo : lo ≤ p) (hhi : p < hi) :
    ZeroesWithin lo hi [p] m (m.store p [0]) := by
  refine ⟨fun q hq => ?_, fun q hq => ?_, fun i hi => ?_⟩
  · rw [List.mem_singleton.mp hq]
    exact ⟨hlo, hhi⟩
  · rw [List.mem_singleton.mp hq]
    exact Mem.store_singleton _ _ _
  · rcases hi with hi | hi
    · exact store_of_lt _ _ (by omega)
    · exact store_of_le _ _ (by rw [List.length_singleton]; omega)

/-- A string is stored in front of the zeroes, and ended with another one. -/
lemma ZeroesWithin.store_str {s : Bytes} (h : ZeroesWithin lo hi ps m m') (hlo : lo ≤ off)
    (hhi : off + s.length < hi) (hps : ∀ p ∈ ps, off + s.length < p) :
    ZeroesWithin lo hi (ps ++ [off + s.length]) m (m'.store off (s ++ [0])) := by
  have hlen : (s ++ [0] : Bytes).length = s.length + 1 := List.length_append
  refine ⟨fun q hq => ?_, fun q hq => ?_, fun i hi => ?_⟩
  · rcases List.mem_append.mp hq with hq | hq
    · exact h.inside q hq
    · rw [List.mem_singleton.mp hq]
      omega
  · rcases List.mem_append.mp hq with hq | hq
    · have hlt := hps q hq
      rw [store_of_le _ _ (by omega)]
      exact h.zero q hq
    · rw [List.mem_singleton.mp hq]
      exact store_end_zero _ _ _
  · rw [← h.outside i hi]
    rcases hi with hi | hi
    · exact store_of_lt _ _ (by omega)
    · exact store_of_le _ _ (by omega)

end

section

variable {c d : Conn}

lemma outputs_stream (h : Outputs c d) : d.req.clientStream = c.req.clientStream := by
  obtain ⟨_, _, _, _, _, _, _, hreq⟩ := h.req
  rw [hreq]

lemma optionEnv_stream (key value : Bytes) (c : Conn) :
    (optionEnv key value c).2.req.clientStream = c.req.clientStream :=
  (optionEnv_keeps 0 key value c).stream

/-- The result leaves `client_stream` alone. -/
def SameStream (c : Conn) (res : Bool × Conn) : Prop :=
  res.2.req.clientStream = c.req.clientStream

lemma SameStream.ite {p : Prop} [Decidable p] {a b : Bool × Conn} (h : SameStream c a)
    (h' : SameStream c b) : SameStream c (if p then a else b) := by
  split_ifs
  · exact h
  · exact h'

lemma optionValue_stream (cfg : Config) (env : Env) (key value : Bytes) (off : ℕ) (c : Conn) :
    SameStream c (optionValue cfg env key value off c) := by
  unfold optionValue
  refine SameStream.ite rfl (SameStream.ite rfl (SameStream.ite rfl (SameStream.ite rfl
    (SameStream.ite rfl (SameStream.ite rfl (SameStream.ite ?_ (SameStream.ite
      (SameStream.ite rfl ?_) (SameStream.ite ?_ (optionEnv_stream key value c)))))))))
  · have hfirst := optionEnv_stream key value (c.upd fun r => { r with headerReferer := some off })
    generalize optionEnv key value (c.upd fun r => { r with headerReferer := some off }) = res
      at hfirst ⊢
    obtain ⟨ret, d⟩ := res
    cases ret with
    | true => exact (optionEnv_stream key value d).trans hfirst
    | false => exact hfirst
  · obtain ⟨ranges, n, heq⟩ := rangeParse_eq c.req value
    generalize rangeParse c.req value = res at heq ⊢
    obtain ⟨ret, r⟩ := res
    have hr : ({ c with req := r } : Conn).req.clientStream = c.req.clientStream := by
      have hr' : r = { c.req with ranges := ranges, numranges := n } := heq
      rw [hr']
    cases ret with
    | true => exact (optionEnv_stream key value _).trans hr
    | false => exact (outputs_stream (sendRInvalidRange_outputs cfg env _)).trans hr
  · exact optionEnv_stream key value (c.upd fun r => { r with headerUserAgent := some off })

/-- `process_option_line` stores the name of the header, with a zero over the colon. -/
lemma processOptionLine_stream (cfg : Config) (env : Env) (c : Conn) :
    (processOptionLine cfg env c).2.req.clientStream =
      (strchr 58 (c.req.streamString c.req.headerLine.off)).elim c.req.clientStream fun colon =>
        c.req.clientStream.store c.req.headerLine.off
          (toUpper ((c.req.streamString c.req.headerLine.off).take colon) ++ [0]) := by
  unfold processOptionLine
  extract_lets line s
  cases strchr 58 s with
  | none => rfl
  | some colon =>
      dsimp -zeta only
      extract_lets key d blanks value
      rw [Option.elim_some]
      have hd : d.req.clientStream = c.req.clientStream.store line (key ++ [0]) := rfl
      clear_value d
      split_ifs
      · exact hd
      · exact (optionValue_stream cfg env key value _ d).trans hd

lemma storeTarget_stream {r : Request} {start : ℕ} {target : Bytes} :
    ((storeTarget r start target).getD r).clientStream =
      (targetHostEnd start target).elim r.clientStream fun p => r.clientStream.store p [0] := by
  rw [storeTarget, targetHostEnd]
  dsimp only
  split_ifs <;> rfl

lemma loglineVersion_stream (cfg : Config) (env : Env) (s : Bytes) (c : Conn) :
    SameStream c (loglineVersion cfg env s c) := by
  unfold loglineVersion
  cases parseVersion s with
  | none => exact outputs_stream (sendRBadRequest_outputs cfg env c)
  | some version =>
      dsimp -zeta only
      extract_lets d
      have hd : d.req.clientStream = c.req.clientStream := rfl
      clear_value d
      exact SameStream.ite ((outputs_stream (sendRBadRequest_outputs cfg env d)).trans hd) hd

/-- `process_logline` stores at most a zero behind the host. -/
lemma processLogline_stream (cfg : Config) (env : Env) (c : Conn) :
    (processLogline cfg env c).2.req.clientStream =
      (hostEnd (c.req.streamString 0)).elim c.req.clientStream fun p =>
        c.req.clientStream.store p [0] := by
  have hbad {d : Conn} (hd : d.req.clientStream = c.req.clientStream) :
      (sendRBadRequest cfg env d).req.clientStream = c.req.clientStream :=
    (outputs_stream (sendRBadRequest_outputs cfg env d)).trans hd
  unfold processLogline hostEnd
  extract_lets d line
  have hd : d.req.clientStream = c.req.clientStream := rfl
  have hline : c.req.streamString 0 = line := rfl
  rw [hline]
  clear_value d line
  by_cases hshort : line.length < 5
  · rw [if_pos hshort, if_pos hshort, Option.elim_none]
    exact hbad hd
  rw [if_neg hshort, if_neg hshort]
  cases parseMethod line with
  | none =>
      dsimp only
      rw [Option.elim_none]
      exact (outputs_stream (sendRNotImplemented_outputs cfg env d)).trans hd
  | some method =>
      dsimp -zeta only
      extract_lets e blank start target rest start' target'
      have hstart : start' = start := rfl
      have htarget : target' = target := rfl
      rw [hstart, htarget]
      have he : e.req.clientStream = c.req.clientStream := hd
      clear_value e target' start' rest target start blank
      by_cases hlong : maxHeaderLength < target.length
      · rw [if_pos hlong, if_pos hlong, Option.elim_none]
        exact hbad he
      rw [if_neg hlong, if_neg hlong]
      have hstore := @storeTarget_stream e.req start target
      rw [he] at hstore
      rw [← hstore]
      cases storeTarget e.req start target with
      | none => exact (hbad he).trans he.symm
      | some r => exact loglineVersion_stream cfg env rest { e with req := r }

/-! ### The end of a line -/

/-- The slash is part of the line. -/
lemma hostEnd_lt {line : Bytes} {p : ℕ} (h : hostEnd line = some p) : p < line.length := by
  unfold hostEnd at h
  by_cases hshort : line.length < 5
  · rw [if_pos hshort] at h
    cases h
  rw [if_neg hshort] at h
  cases hmethod : parseMethod line with
  | none =>
      rw [hmethod] at h
      cases h
  | some method =>
      rw [hmethod] at h
      dsimp -zeta only at h
      extract_lets blank start target at h
      have htarget : target.length ≤ line.length - start := by
        rw [← List.length_drop]
        exact (List.takeWhile_sublist _).length_le
      clear_value target start blank
      by_cases hlong : maxHeaderLength < target.length
      · rw [if_pos hlong] at h
        cases h
      rw [if_neg hlong, targetHostEnd] at h
      by_cases habsolute : (str "http://").isPrefixOf target = true
      swap
      · rw [if_neg habsolute] at h
        cases h
      rw [if_pos habsolute] at h
      dsimp only at h
      split_ifs at h with hbogus
      obtain rfl := Option.some.inj h
      have hseven : 7 ≤ target.length := (List.isPrefixOf_iff_prefix.mp habsolute).length_le
      have hsplit := congrArg List.length
        (List.takeWhile_append_dropWhile (p := (· != 47)) (l := target.drop 7))
      rw [List.length_append, List.length_drop] at hsplit
      have hpath : 0 < ((target.drop 7).dropWhile (· != 47)).length :=
        List.length_pos_iff.mpr fun hnil => hbogus (Or.inr hnil)
      omega

/-- **The zeroes of a line** are stored in the line, whether it is accepted or not. -/
lemma headerLineEnd_zeroes (cfg : Config) (env : Env) {hi : ℕ}
    (hend : c.req.headerLine.off ≤ c.req.headerEnd.off) (hlt : c.req.headerEnd.off < hi)
    (hfirst : c.req.logline = false → c.req.headerLine.off = 0) :
    ZeroesWithin c.req.headerLine.off hi (lineZeroes c.req) c.req.clientStream
      (headerLineEnd cfg env c).conn.req.clientStream := by
  have hcut := @ZeroesWithin.store_zero _ _ _ c.req.clientStream hend hlt
  have hzero : c.req.lineEnded.clientStream c.req.headerEnd.off = 0 := Mem.store_singleton _ _ _
  unfold headerLineEnd lineZeroes
  extract_lets d
  have hline : d.req.headerLine.off = c.req.headerLine.off ∧
      d.req.headerEnd.off = c.req.headerEnd.off ∧ d.req.logline = c.req.logline := ⟨rfl, rfl, rfl⟩
  have hstream : d.req.clientStream = c.req.clientStream.store c.req.headerEnd.off [0] := rfl
  have hstring (off : ℕ) : c.req.lineEnded.streamString off = d.req.streamString off := rfl
  have hlen {off : ℕ} (hoff : off ≤ c.req.headerEnd.off) :
      off + (d.req.streamString off).length ≤ c.req.headerEnd.off := by
    have hle : (d.req.streamString off).length ≤ c.req.headerEnd.off - off :=
      length_cstr_le_of_zero (by rwa [Nat.add_sub_cancel' hoff])
    omega
  clear_value d
  rw [hline.1, hline.2.1, hline.2.2]
  by_cases hlong : maxHeaderLength ≤ c.req.headerEnd.off - c.req.headerLine.off
  · rw [if_pos hlong, if_pos hlong, List.append_nil]
    have hbad := outputs_stream (sendRBadRequest_outputs cfg env d)
    show ZeroesWithin _ _ _ _ (sendRBadRequest cfg env d).req.clientStream
    rw [hbad, hstream]
    exact hcut
  rw [if_neg hlong, if_neg hlong]
  by_cases hlogline : c.req.logline = true
  · rw [if_pos hlogline, if_pos hlogline, hstring]
    have hoption := processOptionLine_stream cfg env d
    generalize processOptionLine cfg env d = res at hoption ⊢
    obtain ⟨ret, e⟩ := res
    dsimp only at hoption
    have hzeroes : ZeroesWithin c.req.headerLine.off hi ([c.req.headerEnd.off] ++
        ((strchr 58 (d.req.streamString c.req.headerLine.off)).map
          (c.req.headerLine.off + ·)).toList) c.req.clientStream e.req.clientStream := by
      rw [hoption, hline.1, hstream]
      have hs := hlen hend
      generalize d.req.streamString c.req.headerLine.off = s at hs ⊢
      cases hcolon : strchr 58 s with
      | none => exact hcut
      | some colon =>
          have hlt' : colon < s.length := (List.findIdx?_eq_some_iff_getElem.mp hcolon).1
          have hkey : (toUpper (s.take colon)).length = colon := by
            rw [toUpper, List.length_map, List.length_take]
            omega
          have hstore := @ZeroesWithin.store_str _ _ c.req.headerLine.off _ _ _
            (toUpper (s.take colon)) hcut le_rfl (by omega)
            (fun p hp => by rw [List.mem_singleton.mp hp]; omega)
          rw [hkey] at hstore
          exact hstore
    cases ret <;> exact hzeroes
  · rw [if_neg hlogline, if_neg hlogline, hstring]
    have hzeroth := hfirst (by simpa using hlogline)
    have hrequest := processLogline_stream cfg env d
    generalize processLogline cfg env d = res at hrequest ⊢
    obtain ⟨ret, e⟩ := res
    dsimp only at hrequest
    have hzeroes : ZeroesWithin c.req.headerLine.off hi ([c.req.headerEnd.off] ++
        (hostEnd (d.req.streamString 0)).toList) c.req.clientStream e.req.clientStream := by
      rw [hrequest, hstream]
      have hs := hlen (Nat.zero_le _)
      generalize d.req.streamString 0 = s at hs ⊢
      cases hhost : hostEnd s with
      | none => exact hcut
      | some p =>
          have hp := hostEnd_lt hhost
          have hstore := @ZeroesWithin.store_str _ _ p _ _ _ [] hcut (by omega)
            (by rw [List.length_nil]; omega)
            (fun q hq => by rw [List.mem_singleton.mp hq, List.length_nil]; omega)
          exact hstore
    cases ret with
    | false => exact hzeroes
    | true =>
        dsimp only
        split_ifs <;> exact hzeroes

/-! ### The cursors -/

/-- The header of the request is being read. -/
def InHeader (c : Conn) : Prop := c.req.status.code < ReqStatus.bodyRead.code

instance (c : Conn) : Decidable (InHeader c) :=
  inferInstanceAs (Decidable (c.req.status.code < ReqStatus.bodyRead.code))

lemma not_busy_iff : ¬Busy c ↔ InHeader c := not_le

/-- The cursors of a request whose header is being read; `ended` says whether `header_end` has been
set since `header_line` was. -/
structure Receives (r : Request) (ended : Bool) : Prop where
  pos : r.parsePos ≤ r.clientStreamPos
  room : r.clientStreamPos ≤ clientStreamSize
  lineIn : r.headerLine.region = .clientStream
  line : r.headerLine.off ≤ r.parsePos
  endIn : ended = true → r.headerEnd.region = .clientStream
  lineEnd : ended = true → r.headerLine.off ≤ r.headerEnd.off ∧ r.headerEnd.off < r.parsePos
  cr : r.status = .oneCr → ended = true
  first : r.logline = false → r.headerLine.off = 0

/-- Whether the next byte sets `header_end`. -/
def setsHeaderEnd (r : Request) : Bool :=
  r.status = .readHeader ∧ (r.clientStream r.parsePos = 13 ∨ r.clientStream r.parsePos = 10)

/-- A round of the loop in `read_header`, with the note. A round that goes on with the status
`ONE_LF` has set `header_line`. -/
def notedByte (cfg : Config) (env : Env) (s : Conn × Bool) : HeaderStep × Bool :=
  let ended := s.2 || setsHeaderEnd s.1.req
  match headerByte cfg env s.1 with
  | .more d => (.more d, if d.req.status = .oneLf then false else ended)
  | res => (res, ended)

/-- The loop of `read_header`, with the note. -/
def notedLoop (cfg : Config) (env : Env) : ℕ → Conn × Bool → HeaderStep × Bool
  | 0, s => (.more s.1, s.2)
  | n + 1, s =>
      match notedByte cfg env s with
      | (.more d, ended) => notedLoop cfg env n (d, ended)
      | res => res

lemma notedByte_fst (cfg : Config) (env : Env) (s : Conn × Bool) :
    (notedByte cfg env s).1 = headerByte cfg env s.1 := by
  rw [notedByte]
  cases headerByte cfg env s.1 <;> rfl

/-- The loop does not look at the note. -/
lemma notedLoop_fst (cfg : Config) (env : Env) (n : ℕ) (s : Conn × Bool) :
    (notedLoop cfg env n s).1 = readHeaderLoop cfg env n s.1 := by
  induction n generalizing s with
  | zero => rfl
  | succ n ih =>
      have hbyte := notedByte_fst cfg env s
      rw [notedLoop, readHeaderLoop, ← hbyte]
      generalize notedByte cfg env s = res
      obtain ⟨res, ended⟩ := res
      cases res with
      | more d => exact ih (d, ended)
      | _ => rfl

section

variable {r : Request} {ended : Bool}

lemma Receives.congr {r' : Request} (h : Receives r ended) (hs : SameLines r r') :
    Receives r' ended := by
  refine ⟨?_, ?_, ?_, ?_, ?_, ?_, ?_, ?_⟩
  · rw [hs.pos, hs.room]
    exact h.pos
  · rw [hs.room]
    exact h.room
  · rw [hs.line]
    exact h.lineIn
  · rw [hs.line, hs.pos]
    exact h.line
  · rw [hs.lineEnd]
    exact h.endIn
  · rw [hs.line, hs.lineEnd, hs.pos]
    exact h.lineEnd
  · rw [hs.status]
    exact h.cr
  · rw [hs.logline, hs.line]
    exact h.first

/-- The status becomes `ONE_CR` or `ONE_LF` only with `header_end` set. -/
lemma Receives.noted (h : Receives r ended) (hin : r.status.code < ReqStatus.bodyRead.code)
    (hs : r.pastByte.status = .oneCr ∨ r.pastByte.status = .oneLf) :
    (ended || setsHeaderEnd r) = true := by
  rw [Bool.or_eq_true]
  have hstep : headerStatus r.status (r.clientStream r.parsePos) = .oneCr ∨
      headerStatus r.status (r.clientStream r.parsePos) = .oneLf := hs
  cases hstatus : r.status with
  | readHeader =>
      refine Or.inr (decide_eq_true ⟨hstatus, ?_⟩)
      rw [hstatus, headerStatus] at hstep
      by_contra hnot
      obtain ⟨hcr, hlf⟩ := not_or.mp hnot
      rw [if_neg hcr, if_neg hlf] at hstep
      rcases hstep with hstep | hstep <;> cases hstep
  | oneCr => exact Or.inl (h.cr hstatus)
  | oneLf =>
      rw [hstatus, headerStatus] at hstep
      split_ifs at hstep <;> rcases hstep with hstep | hstep <;> cases hstep
  | twoCr =>
      rw [hstatus, headerStatus] at hstep
      split_ifs at hstep <;> rcases hstep with hstep | hstep <;> cases hstep
  | _ =>
      rw [hstatus] at hin
      exact absurd hin (by decide)

/-- **A byte** is parsed. -/
lemma Receives.pastByte (h : Receives r ended) (hin : r.status.code < ReqStatus.bodyRead.code)
    (hmore : r.parsePos < r.clientStreamPos) : Receives r.pastByte (ended || setsHeaderEnd r) := by
  have hend : (ended || setsHeaderEnd r) = true → r.pastByte.headerEnd.region = .clientStream ∧
      r.headerLine.off ≤ r.pastByte.headerEnd.off ∧
      r.pastByte.headerEnd.off < r.parsePos + 1 := by
    intro hended
    rw [Bool.or_eq_true, setsHeaderEnd, decide_eq_true_iff] at hended
    by_cases hset : r.status = .readHeader ∧
        (r.clientStream r.parsePos = 13 ∨ r.clientStream r.parsePos = 10)
    · have hhere : r.pastByte.headerEnd = ⟨.clientStream, r.parsePos⟩ := if_pos hset
      rw [hhere]
      exact ⟨rfl, h.line, Nat.lt_succ_self _⟩
    · have hkept : r.pastByte.headerEnd = r.headerEnd := if_neg hset
      have hbefore := hended.resolve_right hset
      rw [hkept]
      exact ⟨h.endIn hbefore, (h.lineEnd hbefore).1, (h.lineEnd hbefore).2.trans_le (Nat.le_succ _)⟩
  exact ⟨hmore, h.room, h.lineIn, h.line.trans (Nat.le_succ _), fun he => (hend he).1,
    fun he => (hend he).2, fun hcr => h.noted hin (Or.inl hcr), h.first⟩

end

/-- What a round of the loop leaves, with the note on the line that ends or goes on. -/
def StepReceives (pos room : ℕ) (ended : Bool) : HeaderStep → Prop
  | .more d =>
      Receives d.req (if d.req.status = .oneLf then false else ended) ∧ InHeader d ∧
        Stands pos room d
  | .loglineEnd d => Receives d.req ended ∧ InHeader d ∧ Stands pos room d
  | .ret value d => value = 0 ∧ ∃ pos' ≤ pos, Stands pos' room d
  | .blankLine d => Stands pos room d

/-- What the loop leaves. -/
def LoopReceives (pos room : ℕ) : HeaderStep × Bool → Prop
  | (.more d, ended) => Receives d.req ended ∧ InHeader d ∧ Stands pos room d
  | (.loglineEnd d, ended) => Receives d.req ended ∧ InHeader d ∧ Stands pos room d
  | (.ret value d, _) => value = 0 ∧ ∃ pos' ≤ pos, Stands pos' room d
  | (.blankLine d, _) => Stands pos room d

/-- An accepted header leaves the request line as it is. -/
lemma processOptionLine_logline {cfg : Config} {env : Env}
    (heq : processOptionLine cfg env c = (true, d)) : d.req.logline = c.req.logline := by
  unfold processOptionLine at heq
  extract_lets line s at heq
  cases hcolon : strchr 58 s with
  | none =>
      rw [hcolon] at heq
      cases heq
  | some colon =>
      rw [hcolon] at heq
      dsimp -zeta only at heq
      extract_lets key e blanks value at heq
      have he : e.req.logline = c.req.logline := rfl
      clear_value e
      by_cases hvalue : value = []
      · rw [if_pos hvalue] at heq
        cases heq
        exact he
      · rw [if_neg hvalue] at heq
        have haccepts := optionValue_accepts cfg env key value (line + colon + 1 + blanks) e
        rw [heq] at haccepts
        exact (haccepts rfl).first.logline.trans he

/-- An accepted request line has been seen. -/
lemma processLogline_logline {cfg : Config} {env : Env}
    (heq : processLogline cfg env c = (true, d)) : d.req.logline = true := by
  unfold processLogline at heq
  extract_lets e line at heq
  have he : e.req.logline = true := rfl
  clear_value e line
  by_cases hshort : line.length < 5
  · rw [if_pos hshort] at heq
    cases heq
  rw [if_neg hshort] at heq
  cases hmethod : parseMethod line with
  | none =>
      rw [hmethod] at heq
      cases heq
  | some method =>
      rw [hmethod] at heq
      dsimp -zeta only at heq
      extract_lets e' blank start target rest at heq
      have he' : e'.req.logline = true := he
      clear_value e' target rest start blank
      by_cases hlong : maxHeaderLength < target.length
      · rw [if_pos hlong] at heq
        cases heq
      rw [if_neg hlong] at heq
      cases hstore : storeTarget e'.req start target with
      | none =>
          rw [hstore] at heq
          cases heq
      | some r =>
          rw [hstore] at heq
          obtain ⟨uri, host, stream, rfl, -⟩ := storeTarget_text 0 hstore
          obtain ⟨version, ka, index, rfl⟩ := loglineVersion_accepts heq
          exact he'

lemma headerStatus_code {s : ReqStatus} (b : UInt8) (hs : s.code < ReqStatus.bodyRead.code)
    (hblank : headerStatus s b ≠ .bodyRead) :
    (headerStatus s b).code < ReqStatus.bodyRead.code := by
  cases s with
  | readHeader | oneCr | oneLf | twoCr =>
      simp only [headerStatus] at hblank ⊢
      split_ifs at hblank ⊢ <;> first | decide | exact absurd rfl hblank
  | _ => exact absurd hs (by decide)

lemma Receives.of_line {ended : Bool} (h : Receives c.req ended) (hl : LineParses c d)
    (hlogline : d.req.logline = true) : Receives d.req ended := by
  obtain ⟨_, _, _, _, _, _, _, _, _, _, _, _, _, _, _, _, rfl⟩ := hl
  refine ⟨h.pos, h.room, h.lineIn, h.line, h.endIn, h.lineEnd, h.cr, fun hfalse => ?_⟩
  rw [hlogline] at hfalse
  cases hfalse

/-- A new line begins, and `header_end` has not been set on it. -/
lemma Receives.nextLine {ended : Bool} (h : Receives d.req ended) (hline : d.req.logline = true)
    (hstatus : d.req.status = .oneLf) : Receives (nextLine d).req false := by
  refine ⟨h.pos, h.room, rfl, le_rfl, nofun, nofun, fun hcr => ?_, fun hfalse => ?_⟩
  · have hstatus' : d.req.status = .oneCr := hcr
    rw [hstatus] at hstatus'
    cases hstatus'
  · have hfalse' : d.req.logline = false := hfalse
    rw [hline] at hfalse'
    cases hfalse'

/-- A line that is refused. -/
lemma ParsesOr.stands {cfg : Config} {env : Env} {res : Bool × Conn} (h : ParsesOr cfg env c res) :
    Stands c.req.parsePos c.req.clientStreamPos res.2 := by
  rcases h with ⟨-, hl⟩ | ⟨-, d, hl, href⟩
  · exact Stands.of_line hl
  · exact (Stands.of_line hl).outputs href.outputs

/-- **The end of a line.** -/
lemma headerLineEnd_receives (cfg : Config) (env : Env) (h : Receives c.req true)
    (hstatus : c.req.status = .oneLf) :
    StepReceives c.req.parsePos c.req.clientStreamPos true (headerLineEnd cfg env c) := by
  unfold headerLineEnd
  extract_lets d
  have hd : Receives d.req true :=
    ⟨h.pos, h.room, h.lineIn, h.line, h.endIn, h.lineEnd, h.cr, h.first⟩
  have hds : d.req.status = .oneLf := hstatus
  have hpos : d.req.parsePos = c.req.parsePos ∧ d.req.clientStreamPos = c.req.clientStreamPos :=
    ⟨rfl, rfl⟩
  clear_value d
  rw [← hpos.1, ← hpos.2]
  have hcode {e : Conn} (hs : e.req.status = .oneLf) : InHeader e := by
    rw [InHeader, hs]
    decide
  have hnew {e : Conn} (he : LineParses d e) (hline : e.req.logline = true) :
      StepReceives d.req.parsePos d.req.clientStreamPos true (.more (nextLine e)) := by
    have hes : e.req.status = .oneLf := he.status.trans hds
    have hnext := (hd.of_line he hline).nextLine hline hes
    have hstands := Stands.of_line he
    have hnote : (if (nextLine e).req.status = .oneLf then false else true) = false := if_pos hes
    refine ⟨?_, hcode hes, hstands⟩
    rw [hnote]
    exact hnext
  split_ifs with hlong hlogline
  · exact ⟨rfl, _, le_rfl, (Stands.refl d).outputs (sendRBadRequest_outputs cfg env d)⟩
  · have hparses := processOptionLine_parses cfg env d
    generalize heq : processOptionLine cfg env d = res at hparses
    obtain ⟨ret, e⟩ := res
    cases ret with
    | false => exact ⟨rfl, _, le_rfl, hparses.stands⟩
    | true =>
        have he : LineParses d e := by
          rcases hparses with ⟨-, hp⟩ | ⟨hret, -⟩
          · exact hp
          · cases hret
        exact hnew he ((processOptionLine_logline heq).trans hlogline)
  · have hparses := processLogline_parses cfg env d
    generalize heq : processLogline cfg env d = res at hparses
    obtain ⟨ret, e⟩ := res
    cases ret with
    | false => exact ⟨rfl, _, le_rfl, hparses.stands⟩
    | true =>
        have he : LineParses d e := by
          rcases hparses with ⟨-, hp⟩ | ⟨hret, -⟩
          · exact hp
          · cases hret
        have hline := processLogline_logline heq
        dsimp only
        split_ifs
        · -- the line has not been left
          exact ⟨hd.of_line he hline, hcode (he.status.trans hds), Stands.of_line he⟩
        · exact hnew he hline

/-- **One byte.** -/
lemma headerByte_receives (cfg : Config) (env : Env) {ended : Bool} (h : Receives c.req ended)
    (hin : InHeader c) (hmore : c.req.parsePos < c.req.clientStreamPos) :
    StepReceives (c.req.parsePos + 1) c.req.clientStreamPos (ended || setsHeaderEnd c.req)
      (headerByte cfg env c) := by
  have hpast := h.pastByte hin hmore
  have hnoted := h.noted hin
  unfold headerByte
  extract_lets uc d
  have hd : d.req = c.req.pastByte := rfl
  have hpos : d.req.parsePos = c.req.parsePos + 1 ∧ d.req.clientStreamPos = c.req.clientStreamPos :=
    ⟨rfl, rfl⟩
  clear_value d
  rw [← hd] at hpast hnoted
  by_cases hillegal : illegalByte uc = true
  · rw [if_pos hillegal]
    exact ⟨rfl, _, Nat.le_succ _, (Stands.refl c).outputs (sendRBadRequest_outputs cfg env c)⟩
  rw [if_neg hillegal]
  by_cases hlf : d.req.status = .oneLf
  · rw [if_pos hlf, ← hpos.1, ← hpos.2]
    have hset := hnoted (Or.inr hlf)
    rw [hset] at hpast ⊢
    exact headerLineEnd_receives cfg env hpast hlf
  rw [if_neg hlf]
  by_cases hblank : d.req.status = .bodyRead
  · rw [if_pos hblank]
    exact hpos
  · rw [if_neg hblank]
    refine ⟨?_, ?_, hpos⟩
    · rw [if_neg hlf]
      exact hpast
    · rw [InHeader, hd]
      rw [hd] at hblank
      exact headerStatus_code _ hin hblank

/-- **The loop** over the bytes at hand. -/
lemma notedLoop_receives (cfg : Config) (env : Env) (n : ℕ) {ended : Bool}
    (h : Receives c.req ended) (hin : InHeader c)
    (hn : c.req.parsePos + n ≤ c.req.clientStreamPos) :
    ∃ pos ≤ c.req.parsePos + n,
      LoopReceives pos c.req.clientStreamPos (notedLoop cfg env n (c, ended)) := by
  induction n generalizing c ended with
  | zero => exact ⟨_, le_rfl, h, hin, Stands.refl c⟩
  | succ n ih =>
      have hstep := headerByte_receives cfg env h hin (by omega)
      rw [notedLoop, notedByte]
      dsimp only
      generalize headerByte cfg env c = res at hstep ⊢
      cases res with
      | more d =>
          obtain ⟨hd, hdin, hpos, hroom⟩ := hstep
          obtain ⟨pos, hle, hloop⟩ := ih hd hdin (by omega)
          rw [hpos] at hle
          rw [hroom] at hloop
          exact ⟨pos, by omega, hloop⟩
      | ret value d => exact ⟨_, by omega, hstep⟩
      | loglineEnd d => exact ⟨_, by omega, hstep⟩
      | blankLine d => exact ⟨_, by omega, hstep⟩

/-- What has been parsed has been received, and what has been received fits. -/
def InStream (c : Conn) : Prop :=
  c.req.parsePos ≤ c.req.clientStreamPos ∧ c.req.clientStreamPos ≤ clientStreamSize

lemma Stands.inStream {pos room : ℕ} (h : Stands pos room c) (hpos : pos ≤ room)
    (hroom : room ≤ clientStreamSize) : InStream c := by
  rw [InStream, h.1, h.2]
  exact ⟨hpos, hroom⟩

lemma InStream.stands (h : InStream c) (hs : Stands c.req.parsePos c.req.clientStreamPos d) :
    InStream d := hs.inStream h.1 h.2

lemma InStream.outputs (h : InStream c) (hout : Outputs c d) : InStream d :=
  h.stands ((Stands.refl c).outputs hout)

/-- The cursors of a connection, between the visits and in them. -/
structure StreamCursors (c : Conn) (ended : Bool) : Prop where
  stream : InStream c
  header : InHeader c → Receives c.req ended

/-- A request that does not end has its cursors in order, and so has one that ends as far as it has
been parsed. -/
structure EndsOrReceives (res : ℤ × Conn) (ended : Bool) : Prop where
  stream : InStream res.2
  header : res.1 ≠ 0 → InHeader res.2 → Receives res.2.req ended

lemma StreamCursors.outputs {ended : Bool} (h : StreamCursors c ended) (hout : Outputs c d) :
    StreamCursors d ended := by
  refine ⟨h.stream.outputs hout, fun hin => ?_⟩
  rcases hout.status with hsame | hdone
  · obtain ⟨_, _, _, _, _, _, _, hreq⟩ := hout.req
    have hcin : InHeader c := by rwa [InHeader, ← hsame]
    refine (h.header hcin).congr ⟨?_, ?_, ?_, ?_, ?_, hsame, ?_, ?_⟩
    all_goals rw [hreq]
  · exact absurd hin (not_lt.mpr ((by decide :
      ReqStatus.bodyRead.code ≤ ReqStatus.done.code).trans hdone))

/-- **`read_header`.** -/
lemma readHeader_receives (cfg : Config) (env : Env) {ended : Bool} (h : Receives c.req ended)
    (hin : InHeader c) :
    EndsOrReceives (readHeader cfg env c)
      (notedLoop cfg env (c.req.clientStreamPos - c.req.parsePos) (c, ended)).2 := by
  have hle := h.pos
  have hsize := h.room
  obtain ⟨pos, hpos, hloop⟩ := notedLoop_receives cfg env
    (c.req.clientStreamPos - c.req.parsePos) h hin (by omega)
  have hfst := notedLoop_fst cfg env (c.req.clientStreamPos - c.req.parsePos) (c, ended)
  rw [readHeader, ← hfst]
  generalize notedLoop cfg env (c.req.clientStreamPos - c.req.parsePos) (c, ended) = res at hloop ⊢
  have hposle : pos ≤ c.req.clientStreamPos := by omega
  obtain ⟨res, note⟩ := res
  cases res with
  | ret value d =>
      obtain ⟨rfl, pos', hpos', hstands⟩ := hloop
      exact ⟨hstands.inStream (hpos'.trans hposle) hsize, fun hne => absurd rfl hne⟩
  | more d =>
      obtain ⟨hd, hdin, hstands⟩ := hloop
      have hstream := hstands.inStream hposle hsize
      have hcode : d.req.status.code < ReqStatus.bodyRead.code := hdin
      dsimp only
      rw [if_pos hcode]
      rcases readHeaderMore_cases env d with ⟨-, heq⟩
        | ⟨hfree, ⟨-, heq⟩ | ⟨-, heq⟩ | ⟨-, heq⟩ | ⟨b, bs, -, heq⟩⟩
      · rw [heq]
        have hset : InStream (d.setResponse 400) := hstream
        exact ⟨hset.outputs (die_outputs _), fun hne => absurd rfl hne⟩
      · rw [heq]
        exact ⟨hstream, fun _ _ => hd⟩
      · rw [heq]
        exact ⟨hstream, fun _ _ => hd⟩
      · rw [heq]
        exact ⟨hstream, fun hne => absurd rfl hne⟩
      · rw [heq]
        have hlen : ((b :: bs).take (clientStreamSize - d.req.clientStreamPos)).length ≤
            clientStreamSize - d.req.clientStreamPos := List.length_take_le _ _
        generalize (b :: bs).take (clientStreamSize - d.req.clientStreamPos) = more at hlen ⊢
        have hroom : (d.received more).req.clientStreamPos ≤ clientStreamSize := by
          show d.req.clientStreamPos + more.length ≤ clientStreamSize
          omega
        have hparsed : (d.received more).req.parsePos ≤ (d.received more).req.clientStreamPos :=
          hstream.1.trans (Nat.le_add_right _ _)
        exact ⟨⟨hparsed, hroom⟩, fun _ _ => ⟨hparsed, hroom, hd.lineIn, hd.line, hd.endIn,
          hd.lineEnd, hd.cr, hd.first⟩⟩
  | loglineEnd d =>
      obtain ⟨hd, hdin, hstands⟩ := hloop
      have hend := processHeaderEnd_stands cfg env hstands
      refine ⟨hend.inStream hposle hsize, fun hret hin' => ?_⟩
      have hgoes := processHeaderEnd_goesOn hret
      by_cases hpost : (processHeaderEnd cfg env d).2.req.method = .post
      · -- the old protocol has no header, but the loop does not stop here
        exact hd.congr (hgoes.post hpost).lines
      · exact absurd (hgoes.busy hpost) (not_busy_iff.mpr hin')
  | blankLine d =>
      have hend := headerBlankLine_stands cfg env hloop
      refine ⟨hend.inStream hposle hsize, fun hret hin' => ?_⟩
      exact absurd ((headerBlankLine_busy cfg env d).busy.resolve_left hret)
        (not_busy_iff.mpr hin')

/-! ### A visit -/

/-- The note behind `processRequest`. -/
def notedRequest (cfg : Config) (env : Env) (c : Conn) (ended : Bool) : Bool :=
  let res := flushFirst c
  if res.1 = 1 ∧ InHeader res.2 then
    (notedLoop cfg env (res.2.req.clientStreamPos - res.2.req.parsePos) (res.2, ended)).2
  else ended

lemma processRequest_receives (cfg : Config) (env : Env) {ended : Bool}
    (h : StreamCursors c ended) :
    EndsOrReceives (processRequest cfg env c) (notedRequest cfg env c ended) := by
  have hflush := h.outputs (flushFirst_outputs c)
  rw [processRequest, notedRequest]
  generalize flushFirst c = res at hflush ⊢
  have hres : EndsOrReceives (if res.1 = 1 then handleStatus cfg env res.2 else res)
      (if res.1 = 1 ∧ InHeader res.2 then
        (notedLoop cfg env (res.2.req.clientStreamPos - res.2.req.parsePos) (res.2, ended)).2
      else ended) := by
    by_cases hone : res.1 = 1
    swap
    · rw [if_neg hone, if_neg fun hboth => hone hboth.1]
      exact ⟨hflush.stream, fun _ => hflush.header⟩
    rw [if_pos hone]
    by_cases hin : InHeader res.2
    · rw [if_pos ⟨hone, hin⟩]
      have hread := readHeader_receives cfg env (hflush.header hin) hin
      have hhandle : handleStatus cfg env res.2 = readHeader cfg env res.2 := by
        rw [InHeader] at hin
        rw [handleStatus]
        cases hstatus : res.2.req.status <;> rw [hstatus] at hin <;>
          first
          | rfl
          | exact absurd hin (by decide)
      rw [hhandle]
      exact hread
    · rw [if_neg fun hboth => hin hboth.2]
      have hbusy : Busy res.2 := not_lt.mp hin
      refine ⟨hflush.stream.stands (handleStatus_stands cfg env hbusy (Stands.refl _)),
        fun hret hin' => ?_⟩
      exact absurd ((handleStatus_busy cfg env hbusy).busy.resolve_left hret)
        (not_busy_iff.mpr hin')
  generalize (if res.1 = 1 then handleStatus cfg env res.2 else res) = res' at hres ⊢
  generalize (if res.1 = 1 ∧ InHeader res.2 then _ else ended : Bool) = note at hres ⊢
  split_ifs
  · refine ⟨hres.stream, fun hret hin => ?_⟩
    exact (hres.header hret hin).congr ⟨rfl, rfl, rfl, rfl, rfl, rfl, rfl, rfl⟩
  · exact hres

/-- The request that `sanitize_request` leaves. -/
lemma sanitizeRequest_receives (cfg : Config) (newReq : Bool) {r : Request}
    (hroom : newReq = false → r.clientStreamPos ≤ clientStreamSize) :
    Receives (sanitizeRequest cfg newReq r) false := by
  refine ⟨Nat.zero_le _, ?_, rfl, Nat.zero_le _, nofun, nofun, nofun, fun _ => rfl⟩
  cases newReq with
  | true => exact Nat.zero_le _
  | false => exact (Nat.sub_le _ _).trans (hroom rfl)

/-- The request that `free_request` leaves, if it is not on `request_free`. -/
lemma freeRequest_receives (cfg : Config) (h : InStream c)
    (hfree : (freeRequest cfg c).free = false) : StreamCursors (freeRequest cfg c) false := by
  obtain ⟨d, hout, ⟨hdone, heq⟩ | heq⟩ := freeRequest_cases cfg c
  · rw [heq]
    refine ⟨h.outputs hout, fun hin => ?_⟩
    exact absurd hin (not_lt.mpr ((by decide :
      ReqStatus.bodyRead.code ≤ ReqStatus.done.code).trans hdone))
  rw [heq] at hfree ⊢
  have hd := h.outputs hout
  rcases releaseRequest_cases cfg d with ⟨n, -, hrec⟩ | ⟨n, -, hrec⟩
  · rw [hrec]
    have hnew := sanitizeRequest_receives cfg false fun _ => hd.2
    exact ⟨⟨hnew.pos, hnew.room⟩,
      fun _ => hnew.congr ⟨rfl, rfl, rfl, rfl, rfl, rfl, rfl, rfl⟩⟩
  · rw [hrec] at hfree
    cases hfree

/-- The note behind a visit. A request that `free_request` recycles begins with a line that has not
been ended. -/
def notedVisit (cfg : Config) (env : Env) (c : Conn) (ended : Bool) : Bool :=
  if (processRequest cfg env (c.visited env)).1 = 0 then false
  else notedRequest cfg env (c.visited env) ended

lemma visit_receives (cfg : Config) (env : Env) {ended : Bool} (h : StreamCursors c ended)
    (hfree : (visit cfg env c).free = false) :
    StreamCursors (visit cfg env c) (notedVisit cfg env c ended) := by
  have hvisited : StreamCursors (c.visited env) ended :=
    ⟨h.stream, fun hin => (h.header hin).congr ⟨rfl, rfl, rfl, rfl, rfl, rfl, rfl, rfl⟩⟩
  have hres := processRequest_receives cfg env hvisited
  rw [visit] at hfree ⊢
  rw [notedVisit]
  rw [Conn.visited] at hres ⊢
  generalize notedRequest cfg env { c with tape := env.sock } ended = note at hres ⊢
  generalize processRequest cfg env { c with tape := env.sock } = res at hres hfree ⊢
  obtain ⟨retval, d⟩ := res
  dsimp only at hfree ⊢
  by_cases hzero : retval = 0
  · rw [if_pos hzero] at hfree ⊢
    rw [if_pos hzero]
    exact freeRequest_receives cfg hres.stream hfree
  rw [if_neg hzero, if_neg hzero]
  split_ifs
  · exact ⟨hres.stream, hres.header hzero⟩
  · exact ⟨hres.stream.outputs (die_outputs d), fun hin =>
      absurd hin (by exact (by decide : ¬ReqStatus.dead.code < ReqStatus.bodyRead.code))⟩

/-! ### Runs -/

/-- A step of the connection, with the note. -/
def notedStep (cfg : Config) (s : Conn × Bool) (i : Input) : Conn × Bool :=
  (step cfg s.1 i,
    match i with
    | .visit env => if s.1.free then s.2 else notedVisit cfg env s.1 s.2
    | .expire _ => s.2
    | .accept _ _ _ _ _ _ => if s.1.free then false else s.2)

/-- The run does not look at the note. -/
lemma notedStep_runs (cfg : Config) (s : Conn × Bool) (is : List Input) :
    (Run.runs (notedStep cfg) s is).1 = Run.runs (step cfg) s.1 is := by
  induction is generalizing s with
  | nil => rfl
  | cons i is ih => exact ih (notedStep cfg s i)

/-- A new connection has received nothing. -/
lemma getRequest_receives (cfg : Config) (env : Env) (fd : ℕ) (localIp remoteIp : Bytes) (port : ℕ)
    (tooMany : Bool) (c : Conn) :
    StreamCursors (getRequest cfg env fd localIp remoteIp port tooMany c) false := by
  have hnew := @sanitizeRequest_receives cfg true c.req nofun
  unfold getRequest
  extract_lets d e
  have hsame : SameLines (sanitizeRequest cfg true c.req) e.req :=
    ⟨rfl, rfl, rfl, rfl, rfl, rfl, rfl, rfl⟩
  clear_value e
  have hreq := hnew.congr hsame
  have he : StreamCursors e false := ⟨⟨hreq.pos, hreq.room⟩, fun _ => hreq⟩
  split_ifs
  · have hset : InStream (e.upd fun r => { r with httpVersion := .http10, method := .get }) :=
      he.stream
    have hpage := hset.outputs (sendRServiceUnavailable_outputs cfg env _)
    generalize sendRServiceUnavailable cfg env _ = page at hpage ⊢
    exact ⟨hpage, fun hin => absurd hin
      (by exact (by decide : ¬ReqStatus.done.code < ReqStatus.bodyRead.code))⟩
  · exact he

/-- A request in use has its cursors in order. -/
def UsedCursors (s : Conn × Bool) : Prop := s.1.free = false → StreamCursors s.1 s.2

/-- **Every step keeps it so.** -/
lemma notedStep_receives (cfg : Config) (s : Conn × Bool) (i : Input) (h : UsedCursors s) :
    UsedCursors (notedStep cfg s i) := by
  obtain ⟨c, ended⟩ := s
  intro hfree
  cases i with
  | visit env =>
      have hfree' : (if c.free then c else visit cfg env c).free = false := hfree
      show StreamCursors (if c.free then c else visit cfg env c)
        (if c.free then ended else notedVisit cfg env c ended)
      by_cases hc : c.free = true
      · rw [if_pos hc] at hfree'
        rw [hc] at hfree'
        cases hfree'
      · rw [if_neg hc] at hfree' ⊢
        rw [if_neg hc]
        exact visit_receives cfg env (h (by simpa using hc)) hfree'
  | expire timedOut =>
      have hfree' : (if c.free then c else if timedOut then c.setStatus .timedOut
          else c.die).free = false := hfree
      show StreamCursors (if c.free then c else if timedOut then c.setStatus .timedOut else c.die)
        ended
      by_cases hc : c.free = true
      · rw [if_pos hc] at hfree'
        rw [hc] at hfree'
        cases hfree'
      rw [if_neg hc]
      have hstream := (h (by simpa using hc)).stream
      cases timedOut with
      | true =>
          rw [if_pos rfl]
          exact ⟨hstream, fun hin => absurd hin
            (by exact (by decide : ¬ReqStatus.timedOut.code < ReqStatus.bodyRead.code))⟩
      | false =>
          rw [if_neg Bool.false_ne_true]
          exact ⟨hstream.outputs (die_outputs c), fun hin => absurd hin
            (by exact (by decide : ¬ReqStatus.dead.code < ReqStatus.bodyRead.code))⟩
  | accept env fd localIp remoteIp port tooMany =>
      have hfree' : (if c.free then getRequest cfg env fd localIp remoteIp port tooMany c
          else c).free = false := hfree
      show StreamCursors
        (if c.free then getRequest cfg env fd localIp remoteIp port tooMany c else c)
        (if c.free then false else ended)
      by_cases hc : c.free = true
      · rw [if_pos hc, if_pos hc]
        exact getRequest_receives cfg env fd localIp remoteIp port tooMany c
      · rw [if_neg hc, if_neg hc]
        exact h (by simpa using hc)

/-- **A round of the loop** in `read_header`: its cursors are in order, and at the end of a line it
stores its zeroes between `header_line` and `parse_pos`; other bytes store nothing. -/
structure RoundReceives (cfg : Config) (env : Env) (c : Conn) (ended : Bool) : Prop where
  header : InHeader c
  receives : Receives c.req ended
  zeroes : c.req.parsePos < c.req.clientStreamPos →
    ¬illegalByte (c.req.clientStream c.req.parsePos) → c.req.pastByte.status = .oneLf →
      c.req.parsePos + 1 ≤ clientStreamSize ∧
        ZeroesWithin c.req.headerLine.off (c.req.parsePos + 1) (lineZeroes c.req.pastByte)
          c.req.clientStream (headerByte cfg env c).conn.req.clientStream
  nothing : illegalByte (c.req.clientStream c.req.parsePos) ∨ c.req.pastByte.status ≠ .oneLf →
    (headerByte cfg env c).conn.req.clientStream = c.req.clientStream

lemma Receives.round (cfg : Config) (env : Env) {ended : Bool} (h : Receives c.req ended)
    (hin : InHeader c) : RoundReceives cfg env c ended := by
  have hpast := h.pastByte hin
  have hnoted := h.noted hin
  have hroom := h.room
  refine ⟨hin, h, fun hmore hlegal hlf => ⟨by omega, ?_⟩, fun hother => ?_⟩
  · unfold headerByte
    extract_lets uc d
    have hd : d.req = c.req.pastByte := rfl
    clear_value d
    rw [if_neg hlegal, hd, if_pos hlf]
    have hset := hnoted (Or.inr hlf)
    have hpast' := hpast hmore
    rw [hset] at hpast'
    have hends : c.req.pastByte.headerLine.off ≤ c.req.pastByte.headerEnd.off ∧
        c.req.pastByte.headerEnd.off < c.req.parsePos + 1 := hpast'.lineEnd rfl
    have hfirst := hpast'.first
    have hstream : c.req.pastByte.clientStream = c.req.clientStream := rfl
    have hline : c.req.pastByte.headerLine = c.req.headerLine := rfl
    rw [← hd] at hends hfirst hstream hline ⊢
    rw [← hstream, ← hline]
    exact headerLineEnd_zeroes cfg env hends.1 hends.2 hfirst
  · unfold headerByte
    extract_lets uc d
    have hd : d.req = c.req.pastByte := rfl
    have hstream : d.req.clientStream = c.req.clientStream := rfl
    clear_value d
    by_cases hillegal : illegalByte uc = true
    · rw [if_pos hillegal]
      exact outputs_stream (sendRBadRequest_outputs cfg env c)
    have hlf : d.req.status ≠ .oneLf := hd ▸ hother.resolve_left hillegal
    rw [if_neg hillegal, if_neg hlf]
    split_ifs <;> exact hstream

/-- **What `sanitize_request` moves**: the count of bytes does not wrap, and a request that is
recycled begins with the bytes that had not been parsed. -/
structure RestMoves (cfg : Config) (c : Conn) : Prop where
  count : ((c.req.clientStreamPos : ℤ) - c.req.parsePos) % 2 ^ 32
    = (c.req.clientStreamPos - c.req.parsePos : ℕ)
  rest : Recycles c → (freeRequest cfg c).req.carried = c.req.restOfStream

lemma InStream.restMoves (cfg : Config) (h : InStream c) : RestMoves cfg c := by
  obtain ⟨hplace, hcarried⟩ := freeRequest_parks cfg c
  refine ⟨?_, fun hrec => hcarried (hplace.mpr hrec)⟩
  obtain ⟨hpos, hroom⟩ := h
  rw [clientStreamSize] at hroom
  omega

/-- **The receive buffer**: in every run the cursors of a request in use are in order, between the
visits and in every round of the loop of `read_header`, and whatever `free_request` gets has the
bytes that it carries over in `client_stream`. -/
theorem clientStream_invariant (cfg : Config) (is : List Input) :
    let s := Run.runs (notedStep cfg) (Conn.initial, false) is
    s.1 = Run.runs (step cfg) Conn.initial is ∧
      (s.1.free = false →
        InStream s.1 ∧ (InHeader s.1 → Receives s.1.req s.2) ∧
          ∀ env,
            (∀ c, flushFirst (s.1.visited env) = (1, c) → InHeader c →
              ∀ k ≤ c.req.clientStreamPos - c.req.parsePos, ∀ d ended,
                notedLoop cfg env k (c, s.2) = (.more d, ended) → RoundReceives cfg env d ended) ∧
            ((processRequest cfg env (s.1.visited env)).1 = 0 →
              RestMoves cfg (processRequest cfg env (s.1.visited env)).2)) := by
  intro s
  have hused : UsedCursors s :=
    Run.runs_invariant (fun s i h _ => notedStep_receives cfg s i h) is _ nofun
      (Run.allowed_true _ _ is)
  refine ⟨notedStep_runs cfg _ is, fun hfree => ?_⟩
  have hs := hused hfree
  refine ⟨hs.stream, hs.header, fun env => ?_⟩
  have hvisited : StreamCursors (s.1.visited env) s.2 :=
    ⟨hs.stream, fun hin => (hs.header hin).congr ⟨rfl, rfl, rfl, rfl, rfl, rfl, rfl, rfl⟩⟩
  refine ⟨fun c hflush hin k hk d ended hloop => ?_, fun _ => ?_⟩
  · have hc := hvisited.outputs (flushFirst_outputs (s.1.visited env))
    rw [hflush] at hc
    have hreceives : Receives c.req s.2 := hc.header hin
    have hpos := hreceives.pos
    obtain ⟨pos, -, hround⟩ := notedLoop_receives cfg env k hreceives hin (by omega)
    rw [hloop] at hround
    exact hround.1.round cfg env hround.2.1
  · exact (processRequest_receives cfg env hvisited).stream.restMoves cfg

/-- A carriage return has ended the second line, as long as no other byte follows. -/
example :
    let s := Run.runs (notedStep {}) (Conn.initial, false)
      [.accept {} 4 [] [] 0 false,
       .visit { sockRead := .data (str "GET / HTTP/1.1\r\nHost: a\r") },
       .visit { sockRead := .again }]
    (s.2, s.1.req.headerLine.off, s.1.req.headerEnd.off, s.1.req.parsePos)
      = (true, 16, 23, 24) := by
  decide +kernel

end

end Yabwf
