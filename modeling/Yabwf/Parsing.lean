import Yabwf.Output
import Yabwf.Read

/-!
What `read_header` does while the header of a request goes on.

* `LineParses`, `Parses`: what a line that is accepted changes, and what a piece of the header
  changes; the output, the descriptors and the answers of the kernel are not among it.
* `processLogline_parses`, `processOptionLine_parses`, `headerByte_parses`: so do the functions
  that read a line, unless they end the request.
* `readHeaderLoop_parses`: so does the loop over the bytes at hand.
-/

namespace Yabwf

open Memory

/-- What accepting a line of the header changes. -/
def LineParses (c c' : Conn) : Prop :=
  ∃ stream line method version ka uri host agent referer since type length ranges n env index,
    c' = { c with req := { c.req with
      clientStream := stream, logline := line, method := method, httpVersion := version
      keepalive := ka, requestUri := uri, headerHost := host, headerUserAgent := agent
      headerReferer := referer, ifModifiedSince := since, contentType := type
      contentLength := length, ranges := ranges, numranges := n, cgiEnv := env
      cgiEnvIndex := index } }

namespace LineParses

variable {c c' c'' : Conn}

lemma refl (c : Conn) : LineParses c c :=
  ⟨_, _, _, _, _, _, _, _, _, _, _, _, _, _, _, _, rfl⟩

lemma trans (h : LineParses c c') (h' : LineParses c' c'') : LineParses c c'' := by
  obtain ⟨_, _, _, _, _, _, _, _, _, _, _, _, _, _, _, _, rfl⟩ := h
  obtain ⟨_, _, _, _, _, _, _, _, _, _, _, _, _, _, _, _, rfl⟩ := h'
  exact ⟨_, _, _, _, _, _, _, _, _, _, _, _, _, _, _, _, rfl⟩

lemma status (h : LineParses c c') : c'.req.status = c.req.status := by
  obtain ⟨_, _, _, _, _, _, _, _, _, _, _, _, _, _, _, _, rfl⟩ := h
  rfl

lemma parsePos (h : LineParses c c') : c'.req.parsePos = c.req.parsePos := by
  obtain ⟨_, _, _, _, _, _, _, _, _, _, _, _, _, _, _, _, rfl⟩ := h
  rfl

end LineParses

/-- What reading the header changes: what its lines change, and where it stands. -/
def Parses (c c' : Conn) : Prop :=
  ∃ d status lineEnd line pos, LineParses c d ∧
    c' = { d with req := { d.req with
      status := status, headerEnd := lineEnd, headerLine := line, parsePos := pos } }

namespace Parses

variable {c c' c'' : Conn}

lemma of_line (h : LineParses c c') : Parses c c' := ⟨c', _, _, _, _, h, rfl⟩

lemma refl (c : Conn) : Parses c c := of_line (LineParses.refl c)

lemma trans (h : Parses c c') (h' : Parses c' c'') : Parses c c'' := by
  obtain ⟨_, _, _, _, _, ⟨_, _, _, _, _, _, _, _, _, _, _, _, _, _, _, _, rfl⟩, rfl⟩ := h
  obtain ⟨_, _, _, _, _, ⟨_, _, _, _, _, _, _, _, _, _, _, _, _, _, _, _, rfl⟩, rfl⟩ := h'
  exact ⟨_, _, _, _, _, ⟨_, _, _, _, _, _, _, _, _, _, _, _, _, _, _, _, rfl⟩, rfl⟩

lemma bufferEnd (h : Parses c c') : c'.req.bufferEnd = c.req.bufferEnd := by
  obtain ⟨_, _, _, _, _, ⟨_, _, _, _, _, _, _, _, _, _, _, _, _, _, _, _, rfl⟩, rfl⟩ := h
  rfl

end Parses

section

variable {cfg : Config} {env : Env}

/-- How a line is refused: without a page, or with one of three. -/
def LineRefused (cfg : Config) (env : Env) (c c' : Conn) : Prop :=
  c' = c ∨ c' = sendRBadRequest cfg env c ∨ c' = sendRNotImplemented cfg env c ∨
    c' = sendRInvalidRange cfg env c

lemma badRequest_refused (c : Conn) : LineRefused cfg env c (sendRBadRequest cfg env c) :=
  Or.inr (Or.inl rfl)

lemma LineRefused.outputs {c c' : Conn} (h : LineRefused cfg env c c') : Outputs c c' := by
  rcases h with h | h | h | h <;> rw [h]
  · exact Outputs.refl _
  · exact sendRBadRequest_outputs cfg env c
  · exact sendRNotImplemented_outputs cfg env c
  · exact sendRInvalidRange_outputs cfg env c

/-- A line is accepted, or refused. -/
def ParsesOr (cfg : Config) (env : Env) (c : Conn) (res : Bool × Conn) : Prop :=
  (res.1 = true ∧ LineParses c res.2) ∨
    (res.1 = false ∧ ∃ d, LineParses c d ∧ LineRefused cfg env d res.2)

lemma ParsesOr.accept {c d : Conn} (h : LineParses c d) : ParsesOr cfg env c (true, d) :=
  Or.inl ⟨rfl, h⟩

lemma ParsesOr.refuse {c d d' : Conn} (h : LineParses c d) (h' : LineRefused cfg env d d') :
    ParsesOr cfg env c (false, d') := Or.inr ⟨rfl, d, h, h'⟩

lemma ParsesOr.trans {c d : Conn} {res : Bool × Conn} (h : LineParses c d)
    (h' : ParsesOr cfg env d res) : ParsesOr cfg env c res := by
  rcases h' with ⟨hret, hp⟩ | ⟨hret, e, hp, ho⟩
  · exact Or.inl ⟨hret, h.trans hp⟩
  · exact Or.inr ⟨hret, e, h.trans hp, ho⟩

lemma ParsesOr.ite {p : Prop} [Decidable p] {c : Conn} {a b : Bool × Conn}
    (h : ParsesOr cfg env c a) (h' : ParsesOr cfg env c b) :
    ParsesOr cfg env c (if p then a else b) := by
  split_ifs
  · exact h
  · exact h'

end

/-! ### The request line -/

lemma storeTarget_parses {c : Conn} {r' : Request} {start : ℕ} {target : Bytes}
    (h : storeTarget c.req start target = some r') : LineParses c { c with req := r' } := by
  rw [storeTarget] at h
  dsimp only at h
  split_ifs at h
  · cases h
    exact ⟨_, _, _, _, _, _, _, _, _, _, _, _, _, _, _, _, rfl⟩
  · cases h
    exact ⟨_, _, _, _, _, _, _, _, _, _, _, _, _, _, _, _, rfl⟩

lemma loglineVersion_parses (cfg : Config) (env : Env) (s : Bytes) (c : Conn) :
    ParsesOr cfg env c (loglineVersion cfg env s c) := by
  unfold loglineVersion
  cases parseVersion s with
  | none => exact ParsesOr.refuse (LineParses.refl c) (badRequest_refused c)
  | some version =>
      dsimp -zeta only
      extract_lets d
      have hd : LineParses c d := ⟨_, _, _, _, _, _, _, _, _, _, _, _, _, _, _, _, rfl⟩
      clear_value d
      split_ifs
      · exact ParsesOr.refuse hd (badRequest_refused d)
      · exact ParsesOr.accept
          (hd.trans ⟨_, _, _, _, _, _, _, _, _, _, _, _, _, _, _, _, rfl⟩)

lemma processLogline_parses (cfg : Config) (env : Env) (c : Conn) :
    ParsesOr cfg env c (processLogline cfg env c) := by
  unfold processLogline
  extract_lets d line
  have hd : LineParses c d := ⟨_, _, _, _, _, _, _, _, _, _, _, _, _, _, _, _, rfl⟩
  clear_value d line
  split_ifs
  · exact ParsesOr.refuse hd (badRequest_refused d)
  cases parseMethod line with
  | none => exact ParsesOr.refuse hd (Or.inr (Or.inr (Or.inl rfl)))
  | some method =>
      dsimp -zeta only
      extract_lets e blank start target rest
      have he : LineParses c e :=
        hd.trans ⟨_, _, _, _, _, _, _, _, _, _, _, _, _, _, _, _, rfl⟩
      clear_value e blank start target rest
      split_ifs
      · exact ParsesOr.refuse he (badRequest_refused e)
      cases hstore : storeTarget e.req start target with
      | none => exact ParsesOr.refuse he (badRequest_refused e)
      | some r =>
          exact ParsesOr.trans (he.trans (storeTarget_parses hstore))
            (loglineVersion_parses cfg env rest _)

/-! ### The other lines -/

lemma addCgiEnv_parses (c : Conn) (key value : Bytes) (httpPrefix : Bool) :
    LineParses c { c with req := (addCgiEnv c.req key value httpPrefix).2 } := by
  rw [addCgiEnv]
  by_cases hroom : c.req.cgiEnvIndex < cgiEnvMax
  · rw [if_pos hroom]
    exact ⟨_, _, _, _, _, _, _, _, _, _, _, _, _, _, _, _, rfl⟩
  · rw [if_neg hroom]
    exact LineParses.refl c

lemma optionEnv_parses (cfg : Config) (env : Env) (key value : Bytes) (c : Conn) :
    ParsesOr cfg env c (optionEnv key value c) := by
  have hadd := addCgiEnv_parses c key value true
  rw [optionEnv]
  generalize addCgiEnv c.req key value true = res at hadd ⊢
  obtain ⟨ret, req⟩ := res
  cases ret with
  | true => exact ParsesOr.accept hadd
  | false => exact ParsesOr.refuse hadd (Or.inl rfl)

/-- `range_parse` changes the ranges and their number. -/
lemma rangeLoop_eq (s : Bytes) (mode : RangeMode) (start stop : ℕ) (r : Request) :
    ∃ ranges n,
      (rangeLoop s mode start stop r).2 = { r with ranges := ranges, numranges := n } := by
  induction s generalizing mode start stop r with
  | nil => exact ⟨_, _, rfl⟩
  | cons b s ih =>
      rw [rangeLoop]
      split
      · exact ⟨_, _, rfl⟩
      · split_ifs
        · exact ⟨_, _, rfl⟩
        · obtain ⟨ranges, n, heq⟩ := ih (rangeTable mode (rangeChar b)).2.2 0 0
            (rangeAdd r _ _)
          exact ⟨ranges, n, heq⟩
      · exact ih _ _ _ r

lemma rangeParse_eq (r : Request) (s : Bytes) :
    ∃ ranges n, (rangeParse r s).2 = { r with ranges := ranges, numranges := n } := by
  rw [rangeParse]
  split_ifs
  · exact rangeLoop_eq _ _ _ _ _
  · exact ⟨_, _, rfl⟩

lemma rangeParse_parses (c : Conn) (s : Bytes) :
    LineParses c { c with req := (rangeParse c.req s).2 } := by
  obtain ⟨ranges, n, heq⟩ := rangeParse_eq c.req s
  rw [heq]
  exact ⟨_, _, _, _, _, _, _, _, _, _, _, _, _, _, _, _, rfl⟩

lemma optionValue_parses (cfg : Config) (env : Env) (key value : Bytes) (off : ℕ) (c : Conn) :
    ParsesOr cfg env c (optionValue cfg env key value off c) := by
  unfold optionValue
  refine ParsesOr.ite (ParsesOr.accept (LineParses.refl c)) (ParsesOr.ite ?_ (ParsesOr.ite ?_
    (ParsesOr.ite ?_ (ParsesOr.ite ?_ (ParsesOr.ite ?_ (ParsesOr.ite ?_ (ParsesOr.ite
      (ParsesOr.ite (ParsesOr.accept (LineParses.refl c)) ?_) (ParsesOr.ite ?_ ?_))))))))
  · exact ParsesOr.accept ⟨_, _, _, _, _, _, _, _, _, _, _, _, _, _, _, _, rfl⟩
  · exact ParsesOr.accept ⟨_, _, _, _, _, _, _, _, _, _, _, _, _, _, _, _, rfl⟩
  · exact ParsesOr.accept ⟨_, _, _, _, _, _, _, _, _, _, _, _, _, _, _, _, rfl⟩
  · exact ParsesOr.accept ⟨_, _, _, _, _, _, _, _, _, _, _, _, _, _, _, _, rfl⟩
  · exact ParsesOr.accept ⟨_, _, _, _, _, _, _, _, _, _, _, _, _, _, _, _, rfl⟩
  · -- the header is added twice
    have hset : LineParses c (c.upd fun r => { r with headerReferer := some off }) :=
      ⟨_, _, _, _, _, _, _, _, _, _, _, _, _, _, _, _, rfl⟩
    have hfirst := ParsesOr.trans hset (optionEnv_parses cfg env key value _)
    generalize optionEnv key value (c.upd fun r => { r with headerReferer := some off }) = res
      at hfirst ⊢
    obtain ⟨ret, d⟩ := res
    cases ret with
    | true =>
        rcases hfirst with ⟨-, hd⟩ | ⟨hret, -⟩
        · exact ParsesOr.trans hd (optionEnv_parses cfg env key value d)
        · cases hret
    | false => exact hfirst
  · have hparse := rangeParse_parses c value
    generalize rangeParse c.req value = res at hparse ⊢
    obtain ⟨ret, r⟩ := res
    cases ret with
    | true => exact ParsesOr.trans hparse (optionEnv_parses cfg env key value _)
    | false => exact ParsesOr.refuse hparse (Or.inr (Or.inr (Or.inr rfl)))
  · have hset : LineParses c (c.upd fun r => { r with headerUserAgent := some off }) :=
      ⟨_, _, _, _, _, _, _, _, _, _, _, _, _, _, _, _, rfl⟩
    exact ParsesOr.trans hset (optionEnv_parses cfg env key value _)
  · exact optionEnv_parses cfg env key value c

lemma processOptionLine_parses (cfg : Config) (env : Env) (c : Conn) :
    ParsesOr cfg env c (processOptionLine cfg env c) := by
  unfold processOptionLine
  extract_lets line s
  clear_value s
  cases strchr 58 s with
  | none => exact ParsesOr.refuse (LineParses.refl c) (Or.inl rfl)
  | some colon =>
      dsimp -zeta only
      extract_lets key d blanks value
      have hd : LineParses c d := ⟨_, _, _, _, _, _, _, _, _, _, _, _, _, _, _, _, rfl⟩
      clear_value d
      exact ParsesOr.ite (ParsesOr.accept hd)
        (ParsesOr.trans hd (optionValue_parses cfg env key value _ d))

/-! ### The loop -/

/-- What a round of the loop leaves: the same as before, or the end of the request. -/
def StepParses (cfg : Config) (env : Env) (c : Conn) : HeaderStep → Prop
  | .more c' | .loglineEnd c' | .blankLine c' => Parses c c'
  | .ret value c' => value = 0 ∧ ∃ d, Parses c d ∧ LineRefused cfg env d c'

lemma StepParses.trans {cfg : Config} {env : Env} {c d : Conn} {res : HeaderStep}
    (h : Parses c d) (h' : StepParses cfg env d res) : StepParses cfg env c res := by
  cases res with
  | ret value c' =>
      obtain ⟨hret, e, hp, ho⟩ := h'
      exact ⟨hret, e, h.trans hp, ho⟩
  | _ => exact h.trans h'

lemma nextLine_parses (c : Conn) : Parses c (nextLine c) :=
  ⟨c, _, _, _, _, LineParses.refl c, rfl⟩

lemma headerLineEnd_parses (cfg : Config) (env : Env) (c : Conn) :
    StepParses cfg env c (headerLineEnd cfg env c) := by
  unfold headerLineEnd
  extract_lets d
  have hd : LineParses c d := ⟨_, _, _, _, _, _, _, _, _, _, _, _, _, _, _, _, rfl⟩
  clear_value d
  refine StepParses.trans (Parses.of_line hd) ?_
  have hopt := processOptionLine_parses cfg env d
  have hlog := processLogline_parses cfg env d
  generalize processOptionLine cfg env d = opt at hopt ⊢
  generalize processLogline cfg env d = log at hlog ⊢
  obtain ⟨ret, e⟩ := opt
  obtain ⟨ret', e'⟩ := log
  split_ifs with hlong hline
  · exact ⟨rfl, d, Parses.refl d, badRequest_refused d⟩
  · cases ret with
    | true =>
        rcases hopt with ⟨-, he⟩ | ⟨hret, -⟩
        · exact (Parses.of_line he).trans (nextLine_parses e)
        · cases hret
    | false =>
        rcases hopt with ⟨hret, -⟩ | ⟨-, f, hf, ho⟩
        · cases hret
        · exact ⟨rfl, f, Parses.of_line hf, ho⟩
  · cases ret' with
    | true =>
        rcases hlog with ⟨-, he⟩ | ⟨hret, -⟩
        · dsimp only
          split_ifs
          · exact Parses.of_line he
          · exact (Parses.of_line he).trans (nextLine_parses e')
        · cases hret
    | false =>
        rcases hlog with ⟨hret, -⟩ | ⟨-, f, hf, ho⟩
        · cases hret
        · exact ⟨rfl, f, Parses.of_line hf, ho⟩

lemma headerByte_parses (cfg : Config) (env : Env) (c : Conn) :
    StepParses cfg env c (headerByte cfg env c) := by
  unfold headerByte
  extract_lets uc d
  have hd : Parses c d := ⟨c, _, _, _, _, LineParses.refl c, rfl⟩
  clear_value d
  split_ifs
  · exact ⟨rfl, c, Parses.refl c, badRequest_refused c⟩
  · exact StepParses.trans hd (headerLineEnd_parses cfg env d)
  · exact hd
  · exact hd

/-- The loop of `read_header`, whatever the number of bytes at hand. -/
lemma readHeaderLoop_parses (cfg : Config) (env : Env) (n : ℕ) (c : Conn) :
    StepParses cfg env c (readHeaderLoop cfg env n c) := by
  induction n generalizing c with
  | zero => exact Parses.refl c
  | succ n ih =>
      have hstep := headerByte_parses cfg env c
      rw [readHeaderLoop]
      cases hres : headerByte cfg env c with
      | more d =>
          rw [hres] at hstep
          exact StepParses.trans hstep (ih d)
      | _ =>
          rw [hres] at hstep
          exact hstep

/-! ### Behind the loop -/

/-- `read_header` has read bytes behind the ones it had. -/
def Conn.received (bs : Bytes) (c : Conn) : Conn :=
  c.upd fun r => { r with
    clientStream := r.clientStream.store r.clientStreamPos bs
    clientStreamPos := r.clientStreamPos + bs.length }

/-- `read_header` finds `client_stream` full, is interrupted, is blocked by the socket, finds
the connection at its end, or reads. -/
lemma readHeaderMore_cases (env : Env) (c : Conn) :
    (clientStreamSize ≤ c.req.clientStreamPos ∧
      readHeaderMore env c = (0, (c.setResponse 400).die)) ∨
    (c.req.clientStreamPos < clientStreamSize ∧
      ((env.sockRead = .intr ∧ readHeaderMore env c = (1, c)) ∨
        (env.sockRead = .again ∧ readHeaderMore env c = (-1, c)) ∨
        ((env.sockRead = .error ∨ env.sockRead = .data []) ∧
          readHeaderMore env c = (0, c.setResponse 400)) ∨
        ∃ b bs, env.sockRead = .data (b :: bs) ∧ readHeaderMore env c =
          (1, c.received ((b :: bs).take (clientStreamSize - c.req.clientStreamPos))))) := by
  unfold readHeaderMore
  dsimp only
  by_cases hfull : clientStreamSize ≤ c.req.clientStreamPos
  · rw [if_pos (by omega)]
    exact Or.inl ⟨hfull, rfl⟩
  rw [if_neg (by omega)]
  refine Or.inr ⟨not_le.mp hfull, ?_⟩
  cases hread : env.sockRead with
  | intr => exact Or.inl ⟨rfl, rfl⟩
  | again => exact Or.inr (Or.inl ⟨rfl, rfl⟩)
  | error => exact Or.inr (Or.inr (Or.inl ⟨Or.inl rfl, rfl⟩))
  | data bs =>
      cases bs with
      | nil =>
          dsimp only
          rw [List.take_nil, if_pos rfl]
          exact Or.inr (Or.inr (Or.inl ⟨Or.inr rfl, rfl⟩))
      | cons b bs =>
          dsimp only
          have hne : (b :: bs).take (clientStreamSize - c.req.clientStreamPos) ≠ [] := by
            rw [ne_eq, List.take_eq_nil_iff, not_or]
            exact ⟨by omega, List.cons_ne_nil b bs⟩
          rw [if_neg hne]
          exact Or.inr (Or.inr (Or.inr ⟨b, bs, rfl, rfl⟩))

end Yabwf
