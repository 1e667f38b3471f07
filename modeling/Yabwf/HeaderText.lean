import Yabwf.Lib.CString
import Yabwf.ErrorLog
import Yabwf.Containment
import Yabwf.Parsing
import Yabwf.Progress

/-!
The text of a header.

* `Quotable`: the bytes that may stand in a line: the ones that `read_header` accepts, except
  for the line feed.
* `HeaderTexts`, `HeaderText`: the strings that later messages quote consist of such bytes: the
  URI, the length of a body, and the line that is being read.
* `headerByte_text`, `readHeaderLoop_text`: the loop of `read_header` keeps them so.
-/

namespace Yabwf

open Memory Mem

/-! ### Bytes of a line -/

/-- A byte that `read_header` accepts within a line. -/
def Quotable (b : UInt8) : Prop := illegalByte b = false ∧ b ≠ 10

instance (b : UInt8) : Decidable (Quotable b) :=
  inferInstanceAs (Decidable (illegalByte b = false ∧ b ≠ 10))

/-- The control characters among them are the carriage return and `DEL`, beside the tab. -/
lemma isControl_iff_of_quotable :
    ∀ b : UInt8, Quotable b → (isControl b = true ↔ b = 13 ∨ b = 127) :=
  forall_byte (by decide +kernel)

/-- What is left of a URI when it is decoded. -/
lemma quotable_of_charVal : ∀ b : UInt8, ¬(charVal b < 32 ∨ 126 < charVal b) → Quotable b :=
  forall_byte (by decide +kernel)

/-- Header names are written in capitals and with underscores. -/
lemma quotable_toUpper :
    ∀ b : UInt8, Quotable b → Quotable (if b = 45 then 95 else toUpperByte b) :=
  forall_byte (by decide +kernel)

lemma forall_mem_unescapeLoop {q : Bool} {s : Bytes} (h : ∀ b ∈ s, Quotable b) :
    ∀ b ∈ (unescapeLoop q s).2.1, Quotable b := by
  fun_induction unescapeLoop q s with
  | case1 => simp
  | case2 => simp
  | case3 c d s b hb r ih =>
      simp only [List.forall_mem_cons] at h ⊢
      exact ⟨quotable_of_charVal b hb, ih h.2.2.2⟩
  | case4 => simp
  | case5 => simp
  | case6 => simp
  | case7 b s _ _ _ _ r ih =>
      simp only [List.forall_mem_cons] at h ⊢
      exact ⟨h.1, ih h.2⟩

/-! ### The invariant -/

/-- The URI and the length of a body are texts of the header. -/
structure HeaderTexts (r : Request) : Prop where
  uri : r.logline = true → ∀ b ∈ r.requestUri, Quotable b
  length : ∀ off, r.contentLength = some off →
    TextBelow Quotable r.clientStream r.parsePos off ∧ EndsBelow r.clientStream r.parsePos off

/-- So is the line that is being read. -/
structure HeaderText (r : Request) : Prop extends HeaderTexts r where
  line : TextBelow Quotable r.clientStream r.parsePos r.headerLine.off
  le : r.headerLine.off ≤ r.parsePos
  cr : r.status = .oneCr →
    r.headerLine.off ≤ r.headerEnd.off ∧ r.headerEnd.off < r.parsePos
  start : r.logline = false → r.headerLine.off = 0 ∧ r.contentLength = none

/-- The line has been ended with a zero. -/
structure LineText (r : Request) : Prop extends HeaderTexts r where
  line : TextBelow Quotable r.clientStream r.parsePos r.headerLine.off
  ends : EndsBelow r.clientStream r.parsePos r.headerLine.off
  le : r.headerLine.off ≤ r.parsePos
  start : r.logline = false → r.headerLine.off = 0 ∧ r.contentLength = none

lemma HeaderTexts.forall_mem_length {r : Request} (h : HeaderTexts r) {off : ℕ}
    (hoff : r.contentLength = some off) : ∀ b ∈ r.streamString off, Quotable b :=
  forall_mem_cstr (h.length off hoff).1 (h.length off hoff).2 _

lemma LineText.forall_mem_line {r : Request} (h : LineText r) :
    ∀ b ∈ r.streamString r.headerLine.off, Quotable b := forall_mem_cstr h.line h.ends _

/-- The parts of a request that the texts are made of. -/
structure SameLines (r r' : Request) : Prop where
  stream : r'.clientStream = r.clientStream
  pos : r'.parsePos = r.parsePos
  room : r'.clientStreamPos = r.clientStreamPos
  line : r'.headerLine = r.headerLine
  lineEnd : r'.headerEnd = r.headerEnd
  status : r'.status = r.status
  logline : r'.logline = r.logline
  length : r'.contentLength = r.contentLength

lemma HeaderTexts.congr {r r' : Request} (h : HeaderTexts r)
    (hstream : r'.clientStream = r.clientStream) (hpos : r'.parsePos = r.parsePos)
    (hlength : r'.contentLength = r.contentLength)
    (huri : r'.logline = true → ∀ b ∈ r'.requestUri, Quotable b) : HeaderTexts r' := by
  refine ⟨huri, fun off hoff => ?_⟩
  rw [hstream, hpos]
  exact h.length off (hlength ▸ hoff)

lemma HeaderText.congr {r r' : Request} (h : HeaderText r) (hs : SameLines r r')
    (huri : r'.logline = true → ∀ b ∈ r'.requestUri, Quotable b) : HeaderText r' := by
  refine ⟨h.toHeaderTexts.congr hs.stream hs.pos hs.length huri, ?_, ?_, ?_, ?_⟩
  · rw [hs.stream, hs.pos, hs.line]
    exact h.line
  · rw [hs.pos, hs.line]
    exact h.le
  · rw [hs.pos, hs.line, hs.lineEnd, hs.status]
    exact h.cr
  · rw [hs.logline, hs.line, hs.length]
    exact h.start

/-! ### One byte -/

section

variable {r : Request}

/-- One more byte has been parsed, and strings have been cut. -/
lemma HeaderTexts.later (h : HeaderTexts r) {r' : Request} (hlogline : r'.logline = r.logline)
    (huri : r'.requestUri = r.requestUri) (hlength : r'.contentLength = r.contentLength)
    (hpos : r.parsePos ≤ r'.parsePos)
    (hcuts : Cuts Quotable r.parsePos r.clientStream r'.clientStream) : HeaderTexts r' := by
  refine ⟨fun hline => ?_, fun off hoff => ?_⟩
  · rw [huri]
    exact h.uri (hlogline ▸ hline)
  · obtain ⟨htext, hends⟩ := h.length off (hlength ▸ hoff)
    have hends' := hends.cuts hcuts
    exact ⟨(htext.cuts hcuts).extend (hends'.mono (Nat.le_succ _)) _, hends'.mono hpos⟩

lemma HeaderTexts.pastByte (h : HeaderTexts r) : HeaderTexts r.pastByte :=
  h.later rfl rfl rfl (Nat.le_succ _) (Cuts.refl _ _ _)

/-- A byte within a line, or at the beginning of one. -/
lemma HeaderText.pastByte (h : HeaderText r)
    (hlegal : illegalByte (r.clientStream r.parsePos) = false)
    (hstatus : r.status.code < ReqStatus.bodyRead.code) (hlf : r.pastByte.status ≠ .oneLf)
    (hblank : r.pastByte.status ≠ .bodyRead) :
    HeaderText r.pastByte ∧ r.pastByte.status.code < ReqStatus.bodyRead.code := by
  have hne : r.clientStream r.parsePos ≠ 10 := by
    intro heq
    simp only [Request.pastByte, heq] at hlf hblank
    cases hs : r.status <;> rw [hs] at hlf hblank hstatus <;>
      first
      | exact absurd rfl hlf
      | exact absurd rfl hblank
      | exact absurd hstatus (by decide)
  have hbyte : Quotable (r.clientStream r.parsePos) := ⟨hlegal, hne⟩
  refine ⟨⟨h.toHeaderTexts.pastByte, h.line.succ hbyte, h.le.trans (Nat.le_succ _), fun hcr => ?_,
    h.start⟩, ?_⟩
  · simp only [Request.pastByte] at hcr ⊢
    cases hs : r.status with
    | readHeader =>
        by_cases h13 : r.clientStream r.parsePos = 13
        · rw [if_pos ⟨rfl, Or.inl h13⟩]
          exact ⟨h.le, Nat.lt_succ_self _⟩
        · rw [hs, headerStatus, if_neg h13, if_neg hne] at hcr
          cases hcr
    | oneCr =>
        rw [if_neg (by simp)]
        exact ⟨(h.cr hs).1, (h.cr hs).2.trans (Nat.lt_succ_self _)⟩
    | oneLf =>
        rw [hs, headerStatus] at hcr
        split_ifs at hcr
    | twoCr =>
        rw [hs, headerStatus] at hcr
        split_ifs at hcr
    | _ =>
        rw [hs] at hstatus
        exact absurd hstatus (by decide)
  · simp only [Request.pastByte]
    cases hs : r.status <;> rw [hs] at hstatus <;>
      first
      | exact absurd hstatus (by decide)
      | (simp only [headerStatus, hne, if_false]; split_ifs <;> decide)

/-- The request at the end of a line, with the zero behind it. -/
def Request.lineEnded (r : Request) : Request :=
  { r with clientStream := r.clientStream.store r.headerEnd.off [0] }

/-- The line feed at the end of a line. -/
lemma HeaderText.lineEnded (h : HeaderText r)
    (hstatus : r.status.code < ReqStatus.bodyRead.code) (hlf : r.pastByte.status = .oneLf) :
    LineText r.pastByte.lineEnded := by
  have hcuts : Cuts Quotable r.parsePos r.clientStream r.pastByte.lineEnded.clientStream :=
    Cuts.store_zero Quotable _ _ _
  have hend : r.headerLine.off ≤ r.pastByte.headerEnd.off ∧
      r.pastByte.headerEnd.off < r.parsePos + 1 := by
    simp only [Request.pastByte] at hlf ⊢
    cases hs : r.status with
    | readHeader =>
        by_cases hfeed : r.clientStream r.parsePos = 10
        · rw [if_pos ⟨rfl, Or.inr hfeed⟩]
          exact ⟨h.le, Nat.lt_succ_self _⟩
        · rw [hs, headerStatus, if_neg hfeed] at hlf
          split_ifs at hlf
    | oneCr =>
        rw [if_neg (by simp)]
        exact ⟨(h.cr hs).1, (h.cr hs).2.trans (Nat.lt_succ_self _)⟩
    | oneLf =>
        rw [hs, headerStatus] at hlf
        split_ifs at hlf
    | twoCr =>
        rw [hs, headerStatus] at hlf
        split_ifs at hlf
    | _ =>
        rw [hs] at hstatus
        exact absurd hstatus (by decide)
  have hends : EndsBelow r.pastByte.lineEnded.clientStream (r.parsePos + 1) r.headerLine.off :=
    ⟨r.pastByte.headerEnd.off, hend.1, hend.2, Mem.store_singleton _ _ _⟩
  exact ⟨h.toHeaderTexts.later rfl rfl rfl (Nat.le_succ _) hcuts,
    (h.line.cuts hcuts).extend hends _, hends, h.le.trans (Nat.le_succ _), h.start⟩

end

/-! ### A line of the header -/

/-- What the request line has left. -/
structure SameLogline (r r' : Request) : Prop where
  logline : r'.logline = r.logline
  method : r'.method = r.method
  version : r'.httpVersion = r.httpVersion

/-- An accepted header leaves the texts alone, except that its value may be the length. -/
structure OptionKeeps (off : ℕ) (c d : Conn) : Prop where
  stream : d.req.clientStream = c.req.clientStream
  uri : d.req.requestUri = c.req.requestUri
  first : SameLogline c.req d.req
  length : d.req.contentLength = c.req.contentLength ∨ d.req.contentLength = some off

/-- If the header is accepted at all. -/
def AcceptsOption (off : ℕ) (c : Conn) (res : Bool × Conn) : Prop :=
  res.1 = true → OptionKeeps off c res.2

section

variable {off : ℕ} {c d : Conn}

lemma SameLogline.trans {r r' r'' : Request} (h : SameLogline r r') (h' : SameLogline r' r'') :
    SameLogline r r'' :=
  ⟨h'.logline.trans h.logline, h'.method.trans h.method, h'.version.trans h.version⟩

lemma OptionKeeps.refl (off : ℕ) (c : Conn) : OptionKeeps off c c :=
  ⟨rfl, rfl, ⟨rfl, rfl, rfl⟩, Or.inl rfl⟩

lemma AcceptsOption.ite {p : Prop} [Decidable p] {a b : Bool × Conn} (h : AcceptsOption off c a)
    (h' : AcceptsOption off c b) : AcceptsOption off c (if p then a else b) := by
  split_ifs
  · exact h
  · exact h'

/-- The texts before the value was looked at are the same. -/
lemma OptionKeeps.of_same {e : Conn} (h : OptionKeeps off d e)
    (hstream : d.req.clientStream = c.req.clientStream)
    (huri : d.req.requestUri = c.req.requestUri) (hfirst : SameLogline c.req d.req)
    (hlength : d.req.contentLength = c.req.contentLength) : OptionKeeps off c e :=
  ⟨h.stream.trans hstream, h.uri.trans huri, hfirst.trans h.first,
    h.length.imp_left (·.trans hlength)⟩

lemma optionEnv_keeps (off : ℕ) (key value : Bytes) (c : Conn) :
    OptionKeeps off c (optionEnv key value c).2 := by
  have hsame : (addCgiEnv c.req key value true).2.clientStream = c.req.clientStream ∧
      (addCgiEnv c.req key value true).2.requestUri = c.req.requestUri ∧
      SameLogline c.req (addCgiEnv c.req key value true).2 ∧
      (addCgiEnv c.req key value true).2.contentLength = c.req.contentLength := by
    rw [addCgiEnv]
    split_ifs <;> exact ⟨rfl, rfl, ⟨rfl, rfl, rfl⟩, rfl⟩
  exact ⟨hsame.1, hsame.2.1, hsame.2.2.1, Or.inl hsame.2.2.2⟩

lemma optionValue_accepts (cfg : Config) (env : Env) (key value : Bytes) (off : ℕ) (c : Conn) :
    AcceptsOption off c (optionValue cfg env key value off c) := by
  unfold optionValue
  refine AcceptsOption.ite (fun _ => OptionKeeps.refl off c) (AcceptsOption.ite ?_
    (AcceptsOption.ite ?_ (AcceptsOption.ite ?_ (AcceptsOption.ite ?_ (AcceptsOption.ite ?_
      (AcceptsOption.ite ?_ (AcceptsOption.ite (AcceptsOption.ite
        (fun _ => OptionKeeps.refl off c) ?_) (AcceptsOption.ite ?_ ?_))))))))
  · exact fun _ => ⟨rfl, rfl, ⟨rfl, rfl, rfl⟩, Or.inl rfl⟩
  · exact fun _ => ⟨rfl, rfl, ⟨rfl, rfl, rfl⟩, Or.inr rfl⟩
  · exact fun _ => ⟨rfl, rfl, ⟨rfl, rfl, rfl⟩, Or.inl rfl⟩
  · exact fun _ => ⟨rfl, rfl, ⟨rfl, rfl, rfl⟩, Or.inl rfl⟩
  · exact fun _ => ⟨rfl, rfl, ⟨rfl, rfl, rfl⟩, Or.inl rfl⟩
  · -- the header is added twice
    have hfirst :=
      optionEnv_keeps off key value (c.upd fun r => { r with headerReferer := some off })
    generalize optionEnv key value (c.upd fun r => { r with headerReferer := some off }) = res
      at hfirst ⊢
    obtain ⟨ret, d⟩ := res
    cases ret with
    | true =>
        intro _
        obtain ⟨h₁, h₂, h₃, h₄⟩ := hfirst
        obtain ⟨h₁', h₂', h₃', h₄'⟩ := optionEnv_keeps off key value d
        have hset : SameLogline c.req (c.upd fun r => { r with headerReferer := some off }).req :=
          ⟨rfl, rfl, rfl⟩
        refine ⟨h₁'.trans h₁, h₂'.trans h₂, (hset.trans h₃).trans h₃', ?_⟩
        rcases h₄' with h | h
        · rw [h]
          exact h₄
        · exact Or.inr h
    | false =>
        intro hret
        cases hret
  · obtain ⟨ranges, n, heq⟩ := rangeParse_eq c.req value
    generalize rangeParse c.req value = res at heq ⊢
    obtain ⟨ret, r⟩ := res
    have hr : r = { c.req with ranges := ranges, numranges := n } := heq
    cases ret with
    | true =>
        have hadd := optionEnv_keeps off key value { c with req := r }
        refine fun _ => hadd.of_same ?_ ?_ ⟨?_, ?_, ?_⟩ ?_
        all_goals rw [hr]
    | false =>
        intro hret
        cases hret
  · have hadd :=
      optionEnv_keeps off key value (c.upd fun r => { r with headerUserAgent := some off })
    exact fun _ => hadd.of_same rfl rfl ⟨rfl, rfl, rfl⟩ rfl
  · exact fun _ => optionEnv_keeps off key value c

/-- An accepted header leaves texts: the name is rewritten, and the value may be the length. -/
lemma processOptionLine_text {cfg : Config} {env : Env} (h : LineText c.req)
    (heq : processOptionLine cfg env c = (true, d)) :
    HeaderTexts d.req ∧ d.req.logline = c.req.logline := by
  have hparses := processOptionLine_parses cfg env c
  rw [heq] at hparses
  have hpos : d.req.parsePos = c.req.parsePos := by
    rcases hparses with ⟨-, hp⟩ | ⟨hret, -⟩
    · exact hp.parsePos
    · cases hret
  unfold processOptionLine at heq
  extract_lets line s at heq
  have hbytes : ∀ i, i < s.length → c.req.clientStream (line + i) ≠ 0 :=
    fun i hi => (cstr_apply hi).2
  have hs : ∀ i (hi : i < s.length), c.req.clientStream (line + i) = s[i] :=
    fun i hi => (cstr_apply hi).1
  clear_value s
  cases hcolon : strchr 58 s with
  | none =>
      rw [hcolon] at heq
      cases heq
  | some colon =>
      have hlt : colon < s.length := (List.findIdx?_eq_some_iff_getElem.mp hcolon).1
      rw [hcolon] at heq
      dsimp -zeta only at heq
      extract_lets key c₁ blanks value at heq
      have hkey : key.length = colon := by
        simp only [key, toUpper, List.length_map, List.length_take]
        omega
      have hcuts : Cuts Quotable c.req.parsePos c.req.clientStream
          (c.req.clientStream.store line (key ++ [0])) := by
        refine Cuts.store_str (fun i hi => hbytes i (by omega)) fun i hi hp => ?_
        have hi' : i < s.length := by omega
        simp only [key, toUpper, List.getElem_map, List.getElem_take]
        rw [← hs i hi']
        exact quotable_toUpper _ hp
      have hc₁ : HeaderTexts c₁.req := h.toHeaderTexts.later rfl rfl rfl le_rfl hcuts
      have hstream : c₁.req.clientStream = c.req.clientStream.store line (key ++ [0]) := rfl
      have hlogline₁ : c₁.req.logline = c.req.logline := rfl
      have hpos₁ : c₁.req.parsePos = c.req.parsePos := rfl
      clear_value c₁
      by_cases hvalue : value = []
      · rw [if_pos hvalue] at heq
        cases heq
        exact ⟨hc₁, hlogline₁⟩
      rw [if_neg hvalue] at heq
      have hrest : colon + 1 + blanks < s.length := by
        by_contra hge
        exact hvalue (List.drop_eq_nil_of_le (not_lt.mp hge))
      have hnz : ∀ i, line ≤ i → i < line + colon + 1 + blanks → c.req.clientStream i ≠ 0 := by
        intro i hi hlt
        obtain ⟨k, rfl⟩ := Nat.exists_eq_add_of_le hi
        exact hbytes k (by omega)
      have hkeeps := optionValue_accepts cfg env key value (line + colon + 1 + blanks) c₁
      rw [heq] at hkeeps
      obtain ⟨hstream', huri, ⟨hlogline, -, -⟩, hlength⟩ := hkeeps rfl
      refine ⟨⟨fun hline => ?_, fun off hoff => ?_⟩, hlogline.trans hlogline₁⟩
      · rw [huri]
        exact hc₁.uri (hlogline ▸ hline)
      · rw [hstream', hpos, ← hpos₁]
        rcases hlength with hsame | hset
        · exact hc₁.length off (hsame ▸ hoff)
        · obtain rfl : line + colon + 1 + blanks = off := Option.some.inj (hset.symm.trans hoff)
          rw [hstream, hpos₁]
          exact ⟨(h.line.drop (by omega) hnz).cuts hcuts, (h.ends.drop hnz).cuts hcuts⟩

/-- An accepted header keeps what the request line has left. -/
lemma processOptionLine_first {cfg : Config} {env : Env}
    (heq : processOptionLine cfg env c = (true, d)) : SameLogline c.req d.req := by
  unfold processOptionLine at heq
  extract_lets line s at heq
  cases hcolon : strchr 58 s with
  | none =>
      rw [hcolon] at heq
      cases heq
  | some colon =>
      rw [hcolon] at heq
      dsimp -zeta only at heq
      extract_lets key c₁ blanks value at heq
      have hc₁ : SameLogline c.req c₁.req := ⟨rfl, rfl, rfl⟩
      clear_value c₁
      by_cases hvalue : value = []
      · rw [if_pos hvalue] at heq
        cases heq
        exact hc₁
      rw [if_neg hvalue] at heq
      have hkeeps := optionValue_accepts cfg env key value (line + colon + 1 + blanks) c₁
      rw [heq] at hkeeps
      exact hc₁.trans (hkeeps rfl).first

/-! ### The request line -/

lemma storeTarget_text {r r' : Request} {start : ℕ} {target : Bytes} (p : ℕ)
    (h : storeTarget r start target = some r') :
    ∃ uri host stream,
      r' = { r with requestUri := uri, headerHost := host, clientStream := stream } ∧
        (∀ b ∈ uri, b ∈ target) ∧ Cuts Quotable p r.clientStream stream := by
  rw [storeTarget] at h
  dsimp only at h
  split_ifs at h
  · cases h
    exact ⟨_, _, _, rfl, fun b hb => List.mem_of_mem_drop ((List.dropWhile_sublist _).mem hb),
      Cuts.store_zero Quotable _ _ _⟩
  · cases h
    exact ⟨_, _, _, rfl, fun b hb => hb, Cuts.refl _ _ _⟩

lemma loglineVersion_accepts {cfg : Config} {env : Env} {s : Bytes}
    (h : loglineVersion cfg env s c = (true, d)) :
    ∃ version ka index, d = { c with req := { c.req with
      httpVersion := version, keepalive := ka, cgiEnvIndex := index } } := by
  unfold loglineVersion at h
  cases hversion : parseVersion s with
  | none =>
      rw [hversion] at h
      cases h
  | some version =>
      rw [hversion] at h
      dsimp -zeta only at h
      extract_lets e at h
      by_cases hhead : e.req.method = .head ∧ version = .http09
      · rw [if_pos hhead] at h
        cases h
      · rw [if_neg hhead] at h
        cases h
        exact ⟨_, _, _, rfl⟩

/-- An accepted request line leaves texts: the URI is part of it. -/
lemma processLogline_text {cfg : Config} {env : Env} (h : LineText c.req)
    (hline : c.req.logline = false) (heq : processLogline cfg env c = (true, d)) :
    LineText d.req ∧ d.req.logline = true := by
  obtain ⟨hoff, hlength⟩ := h.start hline
  have hbytes : ∀ b ∈ c.req.streamString 0, Quotable b := by
    rw [← hoff]
    exact h.forall_mem_line
  unfold processLogline at heq
  extract_lets c₁ line at heq
  have hstring : line = c.req.streamString 0 := rfl
  rw [← hstring] at hbytes
  clear_value line
  by_cases hshort : line.length < 5
  · rw [if_pos hshort] at heq
    cases heq
  rw [if_neg hshort] at heq
  cases hmethod : parseMethod line with
  | none =>
      rw [hmethod] at heq
      cases heq
  | some method =>
      rw [hmethod] at heq
      dsimp -zeta only at heq
      extract_lets c₂ blank start target rest at heq
      have htarget : ∀ b ∈ target, Quotable b := fun b hb =>
        hbytes b (List.mem_of_mem_drop ((List.takeWhile_sublist _).mem hb))
      clear_value target rest start blank
      by_cases hlong : maxHeaderLength < target.length
      · rw [if_pos hlong] at heq
        cases heq
      rw [if_neg hlong] at heq
      cases hstore : storeTarget c₂.req start target with
      | none =>
          rw [hstore] at heq
          cases heq
      | some r =>
          rw [hstore] at heq
          obtain ⟨uri, host, stream, rfl, huri, hcuts⟩ := storeTarget_text c.req.parsePos hstore
          obtain ⟨version, ka, index, rfl⟩ := loglineVersion_accepts heq
          refine ⟨⟨⟨fun _ b hb => htarget b (huri b hb), fun off' hoff' => ?_⟩, h.line.cuts hcuts,
            h.ends.cuts hcuts, h.le, fun hfalse => ?_⟩, rfl⟩
          · have hnone : c.req.contentLength = some off' := hoff'
            rw [hlength] at hnone
            cases hnone
          · cases hfalse

/-! ### The loop -/

/-- The next line begins. -/
lemma nextLine_text (h : HeaderTexts d.req) (hline : d.req.logline = true)
    (hstatus : d.req.status = .oneLf) : HeaderText (nextLine d).req := by
  refine ⟨⟨h.uri, h.length⟩, TextBelow.of_le le_rfl, le_rfl, fun hcr => ?_, fun hfalse => ?_⟩
  · have hstatus' : d.req.status = .oneCr := hcr
    rw [hstatus] at hstatus'
    cases hstatus'
  · have hline' : d.req.logline = false := hfalse
    rw [hline] at hline'
    cases hline'

/-- How far the header has been parsed, and received. -/
def Stands (pos room : ℕ) (d : Conn) : Prop :=
  d.req.parsePos = pos ∧ d.req.clientStreamPos = room

lemma Stands.of_line {e : Conn} (h : LineParses d e) :
    Stands d.req.parsePos d.req.clientStreamPos e := by
  refine ⟨h.parsePos, ?_⟩
  obtain ⟨_, _, _, _, _, _, _, _, _, _, _, _, _, _, _, _, rfl⟩ := h
  rfl

/-- What a round of the loop leaves, or the whole loop. -/
def StepText (pos room : ℕ) : HeaderStep → Prop
  | .more d => HeaderText d.req ∧ d.req.status.code < ReqStatus.bodyRead.code ∧ Stands pos room d
  | .ret value _ => value = 0
  | .loglineEnd d =>
      HeaderText d.req ∧ d.req.status.code < ReqStatus.bodyRead.code ∧ Stands pos room d
  | .blankLine d => HeaderTexts d.req ∧ Stands pos room d

/-- The end of a line. -/
lemma headerLineEnd_text {cfg : Config} {env : Env} (h : LineText c.req.lineEnded)
    (hstatus : c.req.status = .oneLf) :
    StepText c.req.parsePos c.req.clientStreamPos (headerLineEnd cfg env c) := by
  unfold headerLineEnd
  extract_lets d
  have hd : LineText d.req := h
  have hds : d.req.status = .oneLf := hstatus
  have hpos : d.req.parsePos = c.req.parsePos ∧ d.req.clientStreamPos = c.req.clientStreamPos :=
    ⟨rfl, rfl⟩
  clear_value d
  rw [← hpos.1, ← hpos.2]
  by_cases hlong : maxHeaderLength ≤ d.req.headerEnd.off - d.req.headerLine.off
  · rw [if_pos hlong]
    rfl
  rw [if_neg hlong]
  cases hline : d.req.logline with
  | true =>
      rw [if_pos rfl]
      have hparses := processOptionLine_parses cfg env d
      generalize heq : processOptionLine cfg env d = res at hparses
      obtain ⟨ret, e⟩ := res
      cases ret with
      | false => rfl
      | true =>
          obtain ⟨htexts, hlogline⟩ := processOptionLine_text hd heq
          have he : LineParses d e := by
            rcases hparses with ⟨-, hp⟩ | ⟨hret, -⟩
            · exact hp
            · cases hret
          have hes : e.req.status = .oneLf := he.status.trans hds
          have hstands := Stands.of_line he
          refine ⟨nextLine_text htexts (hlogline.trans hline) hes, ?_, hstands.1, hstands.2⟩
          show e.req.status.code < ReqStatus.bodyRead.code
          rw [hes]
          decide
  | false =>
      rw [if_neg Bool.false_ne_true]
      have hparses := processLogline_parses cfg env d
      generalize heq : processLogline cfg env d = res at hparses
      obtain ⟨ret, e⟩ := res
      cases ret with
      | false => rfl
      | true =>
          obtain ⟨htext, hlogline⟩ := processLogline_text hd hline heq
          have he : LineParses d e := by
            rcases hparses with ⟨-, hp⟩ | ⟨hret, -⟩
            · exact hp
            · cases hret
          have hes : e.req.status = .oneLf := he.status.trans hds
          have hcode : e.req.status.code < ReqStatus.bodyRead.code := by
            rw [hes]
            decide
          have hstands := Stands.of_line he
          dsimp only
          split_ifs with hold
          · refine ⟨⟨htext.toHeaderTexts, htext.line, htext.le, fun hcr => ?_, htext.start⟩, hcode,
              hstands⟩
            rw [hes] at hcr
            cases hcr
          · exact ⟨nextLine_text htext.toHeaderTexts hlogline hes, hcode, hstands.1, hstands.2⟩

/-- **One byte.** -/
lemma headerByte_text (cfg : Config) (env : Env) (h : HeaderText c.req)
    (hstatus : c.req.status.code < ReqStatus.bodyRead.code) :
    StepText (c.req.parsePos + 1) c.req.clientStreamPos (headerByte cfg env c) := by
  unfold headerByte
  extract_lets uc d
  have hd : d.req = c.req.pastByte := rfl
  have hpos : d.req.parsePos = c.req.parsePos + 1 ∧ d.req.clientStreamPos = c.req.clientStreamPos :=
    ⟨rfl, rfl⟩
  clear_value d
  by_cases hillegal : illegalByte uc = true
  · rw [if_pos hillegal]
    rfl
  have hlegal : illegalByte (c.req.clientStream c.req.parsePos) = false := by
    rwa [Bool.not_eq_true] at hillegal
  rw [if_neg hillegal]
  by_cases hlf : d.req.status = .oneLf
  · rw [if_pos hlf, ← hpos.1, ← hpos.2]
    refine headerLineEnd_text ?_ hlf
    rw [hd] at hlf ⊢
    exact h.lineEnded hstatus hlf
  rw [if_neg hlf]
  by_cases hblank : d.req.status = .bodyRead
  · rw [if_pos hblank]
    refine ⟨?_, hpos⟩
    rw [hd]
    exact h.toHeaderTexts.pastByte
  · rw [if_neg hblank]
    rw [hd] at hlf hblank
    obtain ⟨htext, hcode⟩ := h.pastByte hlegal hstatus hlf hblank
    refine ⟨?_, ?_, hpos⟩
    · rw [hd]
      exact htext
    · rw [hd]
      exact hcode

/-- **The loop**: it stops somewhere in front of what has been received. -/
lemma readHeaderLoop_text (cfg : Config) (env : Env) (n : ℕ) (h : HeaderText c.req)
    (hstatus : c.req.status.code < ReqStatus.bodyRead.code) :
    ∃ pos ≤ c.req.parsePos + n,
      StepText pos c.req.clientStreamPos (readHeaderLoop cfg env n c) := by
  induction n generalizing c with
  | zero => exact ⟨c.req.parsePos, le_rfl, h, hstatus, rfl, rfl⟩
  | succ n ih =>
      have hstep := headerByte_text cfg env h hstatus
      rw [readHeaderLoop]
      cases hres : headerByte cfg env c with
      | more d =>
          rw [hres] at hstep
          obtain ⟨hd, hcode, hpos, hroom⟩ := hstep
          obtain ⟨pos, hle, htext⟩ := ih hd hcode
          rw [hpos] at hle
          rw [hroom] at htext
          exact ⟨pos, by omega, htext⟩
      | ret value d =>
          rw [hres] at hstep
          exact ⟨_, by omega, hstep⟩
      | loglineEnd d =>
          rw [hres] at hstep
          exact ⟨_, by omega, hstep⟩
      | blankLine d =>
          rw [hres] at hstep
          exact ⟨_, by omega, hstep⟩

end

end Yabwf
