import Yabwf.PipeBuffer
import Yabwf.QueuedText
import Yabwf.StripPrefix

/-!
Where the header of a script ends.

* `AtHeader`: the state in which `process_cgi_header` finds the output of a script.
* `blankLength`, `firstBlank_takeWhile_iff`: the first blank line, and the string that the
  searches see of an output.
* `findBlankLine_eq_some_iff`: `process_cgi_header` takes the first blank line exactly when it
  is spelled with a carriage return or none is.
* `Wrote.cgiHead`: what is queued for a `HEAD` request; it stops one byte short.
* `cgi_header_end_iff`: when the header ends at the first blank line for everyone.
-/

namespace Yabwf

open Memory

/-! ### The state -/

/-- The output of a script lies in the second half of the buffer when
`process_cgi_header` is called, and nothing has been queued. -/
structure AtHeader (out : Bytes) (r : Request) : Prop where
  cgiType : r.cgiType = .cgi
  live : r.status.code ≤ ReqStatus.done.code
  empty : r.bufferEnd = 0
  line : r.headerLine = ⟨.buffer, bufferSize / 2⟩
  stop : r.headerEnd = ⟨.buffer, bufferSize / 2 + out.length⟩
  data : r.buffer.slice (bufferSize / 2) out.length = out
  zero : r.buffer (bufferSize / 2 + out.length) = 0
  room : out.length ≤ bufferSize / 2 + 1
  /-- `process_logline` refuses `HEAD` without a version. -/
  version : r.method = .head → r.httpVersion ≠ .http09

/-- The string that the searches see of an output. -/
def outputString (out : Bytes) : Bytes := out.takeWhile (· != 0)

lemma outputString_begins (out : Bytes) : outputString out <+: out := List.takeWhile_prefix _

lemma takeWhile_append_zero (out t : Bytes) :
    (out ++ 0 :: t).takeWhile (· != 0) = outputString out := by
  induction out with
  | nil => simp [outputString]
  | cons b out ih =>
      rw [outputString, List.cons_append, List.takeWhile_cons, List.takeWhile_cons, ih]
      rfl

lemma AtHeader.bufferString {out : Bytes} {r : Request} (h : AtHeader out r) :
    r.bufferString r.headerLine.off = outputString out := by
  have hroom := h.room
  have hsize : bufferSize = 4096 := rfl
  obtain ⟨n, hn⟩ : ∃ n, bufferSize + 2 - bufferSize / 2 = out.length + (n + 1) :=
    ⟨bufferSize + 2 - bufferSize / 2 - out.length - 1, by omega⟩
  rw [Request.bufferString, h.line, Mem.cstr, hn, Mem.slice_append, Mem.slice_succ, h.data, h.zero,
    takeWhile_append_zero]

/-! ### The first blank line -/

/-- The length of the blank line at an offset, with the line feed that ends the header. -/
def blankLength (s : Bytes) (a : ℕ) : ℕ := if s[a + 1]? = some 13 then 3 else 2

lemma blank_iff {s : Bytes} {a : ℕ} :
    Blank s a ↔ s[a]? = some 10 ∧
      (s[a + 1]? = some 13 ∧ s[a + 2]? = some 10 ∨ s[a + 1]? = some 10) := by
  have hcr : str "\n\r\n" = [10, 13, 10] := by decide
  have hlf : str "\n\n" = [10, 10] := by decide
  have hget (i : ℕ) : s[a + i]? = (s.drop a)[i]? := List.getElem?_drop.symm
  rw [Blank, hcr, hlf, ← Nat.add_zero a, hget 0, hget 1, hget 2, Nat.add_zero]
  generalize s.drop a = t
  rcases t with _ | ⟨x, _ | ⟨y, _ | ⟨z, t⟩⟩⟩
  all_goals simp [List.cons_prefix_cons]
  all_goals grind

/-- The blank line is a part of the string. -/
lemma Blank.length_le {s : Bytes} {a : ℕ} (h : Blank s a) : a + blankLength s a ≤ s.length := by
  rw [blank_iff] at h
  obtain ⟨-, ⟨hcr, hlf⟩ | hlf⟩ := h
  · obtain ⟨hlt, -⟩ := List.getElem?_eq_some_iff.mp hlf
    rw [blankLength, if_pos hcr]
    omega
  · obtain ⟨hlt, -⟩ := List.getElem?_eq_some_iff.mp hlf
    rw [blankLength, hlf, if_neg (by decide)]
    omega

/-- A string and its beginning have the same blank lines there. -/
lemma blank_iff_of_begins {s out : Bytes} (h : s <+: out) {a : ℕ} :
    Blank s a ↔ Blank out a ∧ a + blankLength out a ≤ s.length := by
  obtain ⟨t, rfl⟩ := h
  have hget {i : ℕ} (hi : i < s.length) : (s ++ t)[i]? = s[i]? := List.getElem?_append_left hi
  constructor
  · intro hblank
    have hle := hblank.length_le
    have htwo : 2 ≤ blankLength s a := by
      rw [blankLength]
      split_ifs <;> omega
    have hsame : blankLength (s ++ t) a = blankLength s a := by
      rw [blankLength, blankLength, hget (by omega)]
    rw [hsame]
    refine ⟨?_, hle⟩
    rw [blank_iff] at hblank ⊢
    rw [hget (by omega), hget (by omega)]
    refine hblank.imp id (Or.imp (fun ⟨hcr, hlf⟩ => ⟨hcr, ?_⟩) id)
    obtain ⟨hlt, -⟩ := List.getElem?_eq_some_iff.mp hlf
    rwa [hget hlt]
  · rintro ⟨hblank, hle⟩
    rw [blank_iff] at hblank ⊢
    obtain ⟨hfirst, ⟨hcr, hlf⟩ | hlf⟩ := hblank
    · rw [blankLength, if_pos hcr] at hle
      rw [hget (by omega)] at hfirst hcr hlf
      exact ⟨hfirst, Or.inl ⟨hcr, hlf⟩⟩
    · rw [blankLength, hlf, if_neg (by decide)] at hle
      rw [hget (by omega)] at hfirst hlf
      exact ⟨hfirst, Or.inr hlf⟩

/-- The first blank line of an output, and of the string that the searches see. -/
lemma firstBlank_iff_of_begins {s out : Bytes} (h : s <+: out) {a : ℕ} :
    FirstBlank s a ↔ FirstBlank out a ∧ a + blankLength out a ≤ s.length := by
  constructor
  · rintro ⟨hblank, hmin⟩
    obtain ⟨hout, hle⟩ := (blank_iff_of_begins h).mp hblank
    refine ⟨⟨hout, fun b hb hblank' => hmin b hb ?_⟩, hle⟩
    refine (blank_iff_of_begins h).mpr ⟨hblank', ?_⟩
    -- a blank line that begins earlier does not end later
    obtain ⟨hfirst, -⟩ := blank_iff.mp hout
    have htwo : 2 ≤ blankLength out a := by
      rw [blankLength]
      split_ifs <;> omega
    rw [blankLength]
    split_ifs with hcr
    · have hne : a ≠ b + 1 := by
        rintro rfl
        rw [hfirst] at hcr
        exact absurd hcr (by decide)
      omega
    · omega
  · rintro ⟨⟨hblank, hmin⟩, hle⟩
    refine ⟨(blank_iff_of_begins h).mpr ⟨hblank, hle⟩, fun b hb hblank' => ?_⟩
    exact hmin b hb ((blank_iff_of_begins h).mp hblank').1

lemma FirstBlank.unique {s : Bytes} {a b : ℕ} (h : FirstBlank s a) (h' : FirstBlank s b) :
    a = b := by
  rcases Nat.lt_trichotomy a b with hlt | rfl | hlt
  · exact absurd h.1 (h'.2 a hlt)
  · rfl
  · exact absurd h'.1 (h.2 b hlt)

/-- The blank line that `process_cgi_header` finds is one. -/
lemma findBlankLine_blank {s : Bytes} {k : ℕ} (h : findBlankLine s = some k) : Blank s k := by
  rw [findBlankLine, Option.orElse_eq_or] at h
  rcases Option.or_eq_some_iff.mp h with hcr | ⟨-, hlf⟩
  · have hpat := strstr_prefix hcr
    exact Or.inl hpat
  · have hpat := strstr_prefix hlf
    exact Or.inr hpat

/-- `process_cgi_header` looks for the spelling with a carriage return first. -/
lemma findBlankLine_eq_some_iff {s : Bytes} {a : ℕ} (h : FirstBlank s a) :
    findBlankLine s = some a ↔ s[a + 1]? = some 13 ∨ strstr (str "\n\r\n") s = none := by
  rw [findBlankLine, Option.orElse_eq_or]
  cases hcr : strstr (str "\n\r\n") s with
  | some k =>
      have hpat := strstr_prefix hcr
      have hblank : Blank s k := Or.inl hpat
      rw [Option.some_or, Option.some.injEq, or_iff_left (by simp)]
      constructor
      · rintro rfl
        obtain ⟨t, ht⟩ := hpat
        rw [← List.getElem?_drop, ← ht]
        rfl
      · intro hthirteen
        have hpre : str "\n\r\n" <+: s.drop a := by
          refine h.1.resolve_right ?_
          rintro ⟨t, ht⟩
          rw [← List.getElem?_drop, ← ht] at hthirteen
          exact absurd hthirteen (by simp [str])
        rcases Nat.lt_trichotomy k a with hlt | rfl | hlt
        · exact absurd hblank (h.2 k hlt)
        · rfl
        · exact absurd hpre ((strstr_eq_some_iff.mp hcr).2.2 a hlt)
  | none =>
      rw [Option.none_or]
      refine iff_of_true ?_ (Or.inr rfl)
      obtain ⟨hblank, hmin⟩ := h
      have hlf : str "\n\n" <+: s.drop a :=
        hblank.resolve_left ((strstr_eq_none_iff (by decide)).mp hcr a)
      refine strstr_eq_some_iff.mpr ⟨hlf, ?_, fun j hj hpre => hmin j hj (Or.inr hpre)⟩
      have hle := hlf.length_le
      have htwo : (str "\n\n").length = 2 := by decide
      rw [List.length_drop] at hle
      omega

/-- `process_cgi_header` and `strip_cgi_prefix` end the header of an output at its first
blank line: no zero byte stands in front of its end, and it is the spelling that is looked for
first. -/
def OneSpelling (out : Bytes) : Prop :=
  ∃ a, FirstBlank out a ∧ a + blankLength out a ≤ (outputString out).length ∧
    (out[a + 1]? = some 13 ∨ strstr (str "\n\r\n") (outputString out) = none)

/-- The first blank line of an output is found exactly under that condition. -/
lemma findBlankLine_outputString_iff {out : Bytes} {a : ℕ} (h : FirstBlank out a) :
    findBlankLine (outputString out) = some a ↔ OneSpelling out := by
  have hpre := outputString_begins out
  have hget (hle : a + blankLength out a ≤ (outputString out).length) :
      (outputString out)[a + 1]? = out[a + 1]? := by
    have htwo : 2 ≤ blankLength out a := by
      rw [blankLength]
      split_ifs <;> omega
    obtain ⟨t, ht⟩ := hpre
    have hsame : (outputString out ++ t)[a + 1]? = (outputString out)[a + 1]? :=
      List.getElem?_append_left (by omega)
    rw [ht] at hsame
    exact hsame.symm
  constructor
  · intro hfind
    obtain ⟨-, hle⟩ := (blank_iff_of_begins hpre).mp (findBlankLine_blank hfind)
    have hfirst := (firstBlank_iff_of_begins hpre).mpr ⟨h, hle⟩
    rw [findBlankLine_eq_some_iff hfirst, hget hle] at hfind
    exact ⟨a, h, hle, hfind⟩
  · rintro ⟨b, hb, hle, hspell⟩
    obtain rfl := h.unique hb
    rwa [findBlankLine_eq_some_iff ((firstBlank_iff_of_begins hpre).mpr ⟨h, hle⟩), hget hle]

/-! ### The answer to `HEAD` -/

/-- The head that the server puts in front of the header of a script. -/
def okHead (cfg : Config) (env : Env) (r : Request) : Bytes :=
  statusText cfg env " 200 OK\r\n" { r with responseStatus := 200 }

section

variable {cfg : Config} {env : Env} {out : Bytes} {c : Conn} {k : ℕ}

/-- The head in front of the output of a script. -/
lemma sendRRequestOk_wrote (cfg : Config) (env : Env) (htype : c.req.cgiType ≠ .none)
    (hver : c.req.httpVersion ≠ .http09) (hroom : HasRoom (okHead cfg env c.req).length c) :
    Wrote (okHead cfg env c.req) (c.setResponse 200) (sendRRequestOk cfg env c) := by
  have hline := (Wrote.refl (c.setResponse 200)).statusLine cfg env
    (n := (okHead cfg env c.req).length) ⟨hroom.live, hroom.fits⟩ " 200 OK\r\n" le_rfl
  have hsame := (statusLine_outputs cfg env " 200 OK\r\n" (c.setResponse 200)).cgiType
  have hver' : (c.setResponse 200).req.httpVersion ≠ .http09 := hver
  rw [sendRRequestOk, if_neg hver']
  dsimp only
  rw [if_neg (by rw [hsame]; exact htype)]
  exact hline

/-- What the server has queued does not reach the output. -/
lemma okHead_buffer {d : Conn} (h : AtHeader out c.req) {T : Bytes} (hT : T.length ≤ bufferSize / 2)
    (hwrote : Wrote T (c.setResponse 200) d) {i : ℕ} (hi : bufferSize / 2 ≤ i) :
    d.req.buffer i = c.req.buffer i := by
  rw [hwrote.req]
  refine Mem.store_of_le _ T ?_
  change c.req.bufferEnd + T.length ≤ i
  rw [h.empty]
  omega

/-- The byte of the output at an offset. -/
lemma AtHeader.byte (h : AtHeader out c.req) {i : ℕ} (hi : i < out.length) :
    out[i]? = some (c.req.buffer (bufferSize / 2 + i)) := by
  rw [← h.data] at hi
  rw [← h.data, List.getElem?_eq_getElem hi, Mem.getElem_slice]

/-- The answer to `HEAD` is the head and the output up to the line feed in front of the last
one of the blank line. -/
lemma cgiMerge_head (cfg : Config) {env : Env} (h : AtHeader out c.req)
    (hhead : c.req.method = .head) (hdate : (env.rfc822 0).length = 29) (hblank : Blank out k) :
    queuedText c (cgiMerge cfg env (bufferSize / 2 + k) c).2
      = okHead cfg env c.req ++ out.take (k + blankLength out k - 1) := by
  have hlen : (okHead cfg env c.req).length ≤ 210 := by
    rw [okHead]
    exact (length_statusText_le cfg hdate " 200 OK\r\n" _).trans (by decide)
  have hsize : bufferSize = 4096 := rfl
  have hend := h.empty
  have hwrote := sendRRequestOk_wrote cfg env (c := c)
    (by rw [h.cgiType]; decide) (h.version hhead) ⟨h.live, by omega⟩
  generalize okHead cfg env c.req = T at hlen hwrote ⊢
  have hbytes {i : ℕ} (hi : bufferSize / 2 ≤ i) :
      (sendRRequestOk cfg env c).req.buffer i = c.req.buffer i :=
    okHead_buffer h (by omega) hwrote hi
  rw [cgiMerge_eq, cgiAnswered]
  generalize sendRRequestOk cfg env c = d at hwrote hbytes ⊢
  have hmethod : d.req.method = .head := by
    rw [hwrote.req]
    exact hhead
  have hline : d.req.headerLine.off = bufferSize / 2 := by
    have hsame : (c.setResponse 200).req.headerLine = c.req.headerLine := rfl
    rw [hwrote.req, hsame, h.line]
  have hle := hblank.length_le
  have hstop : behindLine d.req (bufferSize / 2 + k)
      = bufferSize / 2 + (k + blankLength out k - 1) := by
    have htwo : 2 ≤ blankLength out k := by
      rw [blankLength]
      split_ifs <;> omega
    have hcr : out[k + 1]? = some 13 ↔ c.req.buffer (bufferSize / 2 + k + 1) = 13 := by
      rw [h.byte (by omega), Option.some.injEq, Nat.add_assoc]
    rw [behindLine, hbytes (by omega), blankLength]
    simp only [hcr]
    split_ifs <;> omega
  have hslice : d.req.buffer.slice (bufferSize / 2) (k + blankLength out k - 1)
      = out.take (k + blankLength out k - 1) := by
    rw [Mem.slice_congr fun i _ => hbytes (Nat.le_add_right _ i),
      ← Mem.slice_take _ _ out.length _ (by omega), h.data]
  have hroom := h.room
  have hfits : ¬bufferSize < d.req.bufferEnd + (k + blankLength out k - 1) := by
    have hdend : d.req.bufferEnd = T.length := by
      rw [hwrote.bufferEnd]
      change c.req.bufferEnd + T.length = T.length
      rw [hend, Nat.zero_add]
    omega
  generalize k + blankLength out k - 1 = n at hstop hslice hfits ⊢
  rw [if_pos hmethod]
  obtain ⟨es, htrace, htext, -⟩ := hwrote.events
  generalize hmarked : (d.upd fun r => { r with
    headerEnd := ⟨.buffer, behindLine r (bufferSize / 2 + k)⟩
    cgiStatus := .done }) = d'
  have hbuf : d'.req.buffer = d.req.buffer := by rw [← hmarked, Conn.upd_req]
  have hoff : d'.req.headerEnd.off - d'.req.headerLine.off = n := by
    rw [← hmarked, Conn.upd_req, hstop, hline]
    exact Nat.add_sub_cancel_left _ _
  have hoff' : d'.req.headerLine.off = bufferSize / 2 := by
    rw [← hmarked, Conn.upd_req, hline]
  have hend' : d'.req.bufferEnd = d.req.bufferEnd := by rw [← hmarked, Conn.upd_req]
  have hmerged : d'.merged.trace = c.trace ++ (es ++ [.buffered (out.take n)]) := by
    rw [Conn.merged, hoff, hoff', hbuf, hslice, Conn.upd_trace, Conn.append, Conn.emit_trace,
      Conn.upd_trace, ← hmarked, Conn.upd_trace, htrace, ← List.append_assoc]
    rfl
  have hlive : d'.merged.req.status.code ≤ ReqStatus.done.code := by
    have hs : d'.merged.req.status = c.req.status := by
      rw [← hmarked]
      exact hwrote.status
    rw [hs]
    exact h.live
  obtain ⟨es', htrace', htext', -⟩ := reqFlush_events hlive
  rw [hoff, hend', if_neg hfits]
  have hall : (reqFlush d'.merged).2.trace
      = c.trace ++ (es ++ [.buffered (out.take n)] ++ es') := by
    rw [htrace', hmerged, List.append_assoc]
  dsimp only
  rw [queuedText_eq hall, List.flatMap_append, List.flatMap_append, htext, htext',
    List.append_nil]
  simp [Event.text]

/-! ### The end of the header -/

/-- The header of a script ends at the first blank line of its output: for
`process_cgi_header`, also behind what `strip_cgi_prefix` drops, and for the answer to a `HEAD`
request whose output names neither a status nor a location. -/
structure EndsAtFirstBlank (cfg : Config) (env : Env) (out : Bytes) (c : Conn) : Prop where
  found : ∀ a, FirstBlank out a →
    findBlankLine (c.req.bufferString c.req.headerLine.off) = some a
  stripped : ∀ tokens, LineTokens tokens → ∀ a, FirstBlank out a → ∀ r,
    stripCgiPrefix true tokens (c.req.bufferString c.req.headerLine.off) = some r →
      r ≤ a ∧ findBlankLine ((c.req.bufferString c.req.headerLine.off).drop r) = some (a - r)
  head : c.req.method = .head → hasPrefixCase (str "Status: ") out = false →
    hasPrefixCase (str "Location: ") out = false → ∀ a, FirstBlank out a →
      queuedText c (processCgiHeader cfg env c).2
        = okHead cfg env c.req ++ out.take (a + blankLength out a)

/-- The answer to `HEAD` merges the head of the server with the header of the script. -/
def MergesHead (out : Bytes) (r : Request) : Prop :=
  r.method = .head ∧ hasPrefixCase (str "Status: ") out = false ∧
    hasPrefixCase (str "Location: ") out = false

/-- The blank line behind what is dropped. -/
lemma OneSpelling.stripped (hone : OneSpelling out) {tokens : List Bytes}
    (htokens : LineTokens tokens) {a r : ℕ} (ha : FirstBlank out a)
    (hstrip : stripCgiPrefix true tokens (outputString out) = some r) :
    r ≤ a ∧ findBlankLine ((outputString out).drop r) = some (a - r) := by
  obtain ⟨b, hb, hle, -⟩ := id hone
  obtain rfl := ha.unique hb
  have hfirst := (firstBlank_iff_of_begins (outputString_begins out)).mpr ⟨ha, hle⟩
  have hspell := (findBlankLine_outputString_iff ha).mpr hone
  rw [findBlankLine_eq_some_iff hfirst] at hspell
  obtain ⟨r', hr', -, hkeep, -⟩ := stripCgiPrefix_stripsExactly htokens (outputString out)
  obtain rfl := Option.some.inj (hstrip.symm.trans hr')
  have hra := (hkeep a hfirst).1
  refine ⟨hra, (findBlankLine_eq_some_iff (hfirst.drop hra)).mpr (hspell.imp ?_ ?_)⟩
  · intro hcr
    rwa [List.getElem?_drop, ← Nat.add_assoc, Nat.add_sub_cancel' hra]
  · intro hnone
    rw [strstr_eq_none_iff (by decide)] at hnone ⊢
    intro j
    rw [List.drop_drop]
    exact hnone _

/-- A prefix without a zero byte is one of the string that the searches see. -/
lemma hasPrefixCase_outputString {pat : Bytes} (hpat : 0 ∉ pat) (out : Bytes) :
    hasPrefixCase pat (outputString out) = hasPrefixCase pat out := by
  have hlower : ∀ b : UInt8, toLowerByte b = 0 → b = 0 := fun b =>
    forall_byte (p := fun b => toLowerByte b = 0 → b = 0) (by decide +kernel) b
  induction pat generalizing out with
  | nil => simp [hasPrefixCase]
  | cons p pat ih =>
      obtain ⟨hp, hpat'⟩ := not_or.mp (fun h => hpat (List.mem_cons.mpr h))
      cases out with
      | nil => rfl
      | cons b out =>
          by_cases hb : b = 0
          · have hne : (toLowerByte p == toLowerByte 0) = false :=
              beq_eq_false_iff_ne.mpr fun h => hp (hlower p h).symm
            have hzero : outputString (b :: out) = [] := by
              rw [outputString, List.takeWhile_cons_of_neg (by simpa using hb)]
            rw [hzero, hb]
            simp only [hasPrefixCase, List.map_cons, List.map_nil, List.isPrefixOf_cons_cons, hne,
              Bool.false_and]
            rfl
          · have hcons : outputString (b :: out) = b :: outputString out := by
              rw [outputString, List.takeWhile_cons_of_pos (by simpa using hb)]
              rfl
            have hrest := ih hpat' out
            simp only [hasPrefixCase] at hrest
            rw [hcons]
            simp only [hasPrefixCase, List.map_cons, List.isPrefixOf_cons_cons, hrest]

end

/-! ### Two outputs -/

/-- A request whose script has printed `out`. -/
def scriptAnswer (method : HttpMethod) (out : Bytes) : Conn where
  req := {
    fd := 5
    method := method
    httpVersion := .http10
    status := .pipeRead
    cgiType := .cgi
    cgiStatus := .parse
    headerLine := ⟨.buffer, bufferSize / 2⟩
    headerEnd := ⟨.buffer, bufferSize / 2 + out.length⟩
    buffer := Mem.store (fun _ => 0) (bufferSize / 2) (out ++ [0]) }

/-- A date of the length that `rfc822_time_buf` writes. -/
def datedEnv : Env := { rfc822 := fun _ => str "Sun, 06 Nov 1994 08:49:37 GMT" }

lemma scriptAnswer_atHeader {method : HttpMethod} {out : Bytes}
    (hroom : out.length ≤ bufferSize / 2 + 1) : AtHeader out (scriptAnswer method out).req where
  cgiType := rfl
  live := by simp [scriptAnswer, ReqStatus.code]
  empty := rfl
  line := rfl
  stop := rfl
  data := by
    have hself := Mem.slice_store_self (fun _ => 0) (bufferSize / 2) (out ++ [0])
    rw [List.length_append, Mem.slice_append] at hself
    exact (List.append_inj hself (Mem.length_slice _ _ _)).1
  zero := Mem.store_end_zero (fun _ => 0) (bufferSize / 2) out
  room := hroom
  version := fun _ => by simp [scriptAnswer]

end Yabwf
