import Yabwf.Lib.Span
import Yabwf.Request

/-!
The grammar of request lines.

* `LineFront`, `VersionText`, `RequestLine`: a method, spaces, a target, and spaces with or
  without a version. The spaces in front of the target go as far as they can.
* `processLogline_front`, `exists_front_or_refused`: what `process_logline` makes of a line.
* `LooseVersion`: what `sscanf` takes for a version.
* `processLogline_reads_iff`: the lines that are accepted are the ones of the grammar, unless a
  version is written loosely.
-/

namespace Yabwf

open Memory Span

/-! ### Request lines -/

/-- A space, the only white space of request lines. -/
def isBlank (b : UInt8) : Bool := b == 32

/-- Any other byte. -/
def isText (b : UInt8) : Bool := b != 32

/-- The name of a method. -/
def HttpMethod.word : HttpMethod → Bytes
  | .unset => []
  | .get => str "GET"
  | .head => str "HEAD"
  | .post => str "POST"

/-- The numbers of a version. -/
def HttpVersion.numbers : HttpVersion → Option (ℕ × ℕ)
  | .unset => none
  | .http09 => some (0, 9)
  | .http10 => some (1, 0)
  | .http11 => some (1, 1)

/-- A version as it is written. -/
def HttpVersion.word : HttpVersion → Bytes
  | .unset => []
  | .http09 => str "HTTP/0.9"
  | .http10 => str "HTTP/1.0"
  | .http11 => str "HTTP/1.1"

/-- A target, with the host that it names, and the path that is asked for. -/
inductive TargetText : Bytes → Option Bytes → Bytes → Prop
  | relative {t : Bytes} (h : ¬str "http://" <+: t) : TargetText t none t
  | absolute {host path : Bytes} (hne : host ≠ []) (hslash : 47 ∉ host) :
      TargetText (str "http://" ++ (host ++ 47 :: path)) (some host) (47 :: path)

/-- A request line up to its version. -/
structure LineFront where
  method : HttpMethod
  blanks : Bytes
  target : Bytes
  host : Option Bytes
  uri : Bytes
  method_ne : method ≠ .unset
  blanks_ne : blanks ≠ []
  blanks_blank : All isBlank blanks
  target_text : All isText target
  target_parts : TargetText target host uri
  target_le : target.length ≤ maxHeaderLength

namespace LineFront

variable (f : LineFront)

/-- The front as it is written. -/
def text : Bytes := f.method.word ++ (f.blanks ++ f.target)

/-- What may stand behind the target: the end, or a space. Without a target, the spaces in front
of it have gone up to the end. -/
def Before (rest : Bytes) : Prop := Stops isText rest ∧ (f.target = [] → rest = [])

end LineFront

/-- Spaces, with or without a version between them. -/
inductive VersionText : Bytes → HttpVersion → Prop
  | absent {s : Bytes} (hs : All isBlank s) : VersionText s .http09
  | written {v : HttpVersion} {s t : Bytes} (hne : s ≠ []) (hs : All isBlank s) (hv : v ≠ .unset)
      (ht : All isBlank t) : VersionText (s ++ (v.word ++ t)) v

/-- A request line that is to be accepted. -/
structure RequestLine where
  front : LineFront
  rest : Bytes
  version : HttpVersion
  before : front.Before rest
  reads : VersionText rest version
  five_le : 5 ≤ (front.text ++ rest).length
  head : front.method = .head → version ≠ .http09

/-- The line as it is written. -/
def RequestLine.text (w : RequestLine) : Bytes := w.front.text ++ w.rest

/-- What `sscanf` takes for a version: numbers with white space and a sign in front of them, which
wrap around, with a dot between them and anything behind them. -/
def LooseVersion (s : Bytes) (v : HttpVersion) : Prop :=
  ∃ blanks s₁ p₁ s₂ p₂ s₃, s = blanks ++ (str "HTTP/" ++ s₁) ∧ All isBlank blanks ∧
    scanUnsigned s₁ = some (p₁, 46 :: s₂) ∧ scanUnsigned s₂ = some (p₂, s₃) ∧
    v.numbers = some (p₁, p₂)

/-! ### Versions -/

lemma stops_isBlank {b : UInt8} (s : Bytes) (hb : b ≠ 32) : Stops isBlank (b :: s) :=
  stops_cons (by simp [isBlank, hb])

lemma dropWhile_isBlank {s t : Bytes} (hs : All isBlank s) (ht : Stops isBlank t) :
    (s ++ t).dropWhile (· == 32) = t := dropWhile_span (p := isBlank) hs ht

lemma parseVersion_absent {s : Bytes} (hs : All isBlank s) : parseVersion s = some .http09 := by
  have hnone : s.dropWhile (· == 32) = [] := by
    have h := dropWhile_isBlank hs stops_nil
    rwa [List.append_nil] at h
  rw [parseVersion, hnone]

/-- The version is the one whose numbers are scanned. -/
lemma ofNumbers_iff (p₁ p₂ : ℕ) (v : HttpVersion) :
    (if p₁ = 0 ∧ p₂ = 9 then some HttpVersion.http09
      else if p₁ = 1 ∧ p₂ = 0 then some .http10
      else if p₁ = 1 ∧ p₂ = 1 then some .http11
      else none) = some v ↔ v.numbers = some (p₁, p₂) := by
  constructor
  · intro h
    split_ifs at h with h₁ h₂ h₃
    · obtain ⟨rfl, rfl⟩ := h₁
      rw [← Option.some.inj h]
      rfl
    · obtain ⟨rfl, rfl⟩ := h₂
      rw [← Option.some.inj h]
      rfl
    · obtain ⟨rfl, rfl⟩ := h₃
      rw [← Option.some.inj h]
      rfl
  · intro h
    cases v with
    | unset => cases h
    | http09 =>
        cases h
        rfl
    | http10 =>
        cases h
        rfl
    | http11 =>
        cases h
        rfl

/-- **What is taken for a version**: none at all, or a loose one. -/
lemma parseVersion_eq_some_iff {s : Bytes} {v : HttpVersion} :
    parseVersion s = some v ↔ All isBlank s ∧ v = .http09 ∨ LooseVersion s v := by
  obtain ⟨blanks, t, rfl, hblanks, hstop⟩ := exists_span isBlank s
  constructor
  · intro h
    rw [parseVersion, dropWhile_isBlank hblanks hstop] at h
    cases t with
    | nil =>
        rw [List.append_nil]
        exact Or.inl ⟨hblanks, (Option.some.inj h).symm⟩
    | cons b t =>
        right
        dsimp only at h
        split_ifs at h with hfront
        rw [Bool.not_eq_true', Bool.not_eq_false, List.isPrefixOf_iff_prefix] at hfront
        obtain ⟨s₁, hs₁⟩ := hfront
        rw [← hs₁] at h ⊢
        have hdrop : (str "HTTP/" ++ s₁).drop 5 = s₁ := rfl
        rw [hdrop] at h
        split at h
        · rename_i p₁ s₂ hscan
          split at h
          · rename_i p₂ s₃ hscan'
            exact ⟨blanks, s₁, p₁, s₂, p₂, s₃, rfl, hblanks, hscan, hscan',
              (ofNumbers_iff p₁ p₂ v).mp h⟩
          · cases h
        · cases h
  · rintro (⟨hall, rfl⟩ | ⟨blanks', s₁, p₁, s₂, p₂, s₃, heq, hblanks', hscan, hscan', hnum⟩)
    · exact parseVersion_absent hall
    · have hhttp : str "HTTP/" ++ s₁ = 72 :: (str "TTP/" ++ s₁) := rfl
      rw [heq, parseVersion, dropWhile_isBlank hblanks' (hhttp ▸ stops_isBlank _ (by decide)),
        hhttp]
      have hfront : (str "HTTP/").isPrefixOf (72 :: (str "TTP/" ++ s₁)) = true := rfl
      have hdrop : (72 :: (str "TTP/" ++ s₁)).drop 5 = s₁ := rfl
      refine (if_neg (by rw [hfront]; decide)).trans ?_
      simp only [hdrop, hscan, hscan']
      exact (ofNumbers_iff p₁ p₂ v).mpr hnum

/-- A digit in front of spaces is scanned. -/
lemma scanUnsigned_last {d : UInt8} (hd : d = 48 ∨ d = 49 ∨ d = 57) {t : Bytes}
    (ht : All isBlank t) : scanUnsigned (d :: t) = some ((d.toNat - 48), t) := by
  have hdigit : isDigit d = true ∧ isSpace d = false := by
    rcases hd with rfl | rfl | rfl <;> decide
  have hstop : Stops isDigit t := by
    intro b t' heq
    have hb : b = 32 := by simpa [isBlank] using ht b (heq ▸ List.mem_cons_self)
    rw [hb]
    decide
  have hall : All isDigit [d] := List.forall_mem_singleton.mpr hdigit.1
  have htake : (d :: t).takeWhile isDigit = [d] := takeWhile_span hall hstop
  have hdrop : (d :: t).dropWhile isDigit = t := dropWhile_span hall hstop
  have hspace : (d :: t).dropWhile isSpace = d :: t := List.dropWhile_cons_of_neg (by simp [hdigit])
  rw [scanUnsigned]
  simp only [hspace, List.head?_cons]
  rcases hd with rfl | rfl | rfl
  · simp [htake, hdrop, leadingNumber, ulongMax]
  · simp [htake, hdrop, leadingNumber, ulongMax]
  · simp [htake, hdrop, leadingNumber, ulongMax]

/-- A version that is written as it should be is taken for one. -/
lemma VersionText.parseVersion {s : Bytes} {v : HttpVersion} (h : VersionText s v) :
    parseVersion s = some v := by
  rw [parseVersion_eq_some_iff]
  cases h with
  | absent hs => exact Or.inl ⟨hs, rfl⟩
  | @written v s t hne hs hv ht =>
      right
      cases v with
      | unset => exact absurd rfl hv
      | http09 =>
          exact ⟨s, str "0.9" ++ t, 0, 57 :: t, 9, t, rfl, hs, rfl,
            scanUnsigned_last (d := 57) (by decide) ht, rfl⟩
      | http10 =>
          exact ⟨s, str "1.0" ++ t, 1, 48 :: t, 0, t, rfl, hs, rfl,
            scanUnsigned_last (d := 48) (by decide) ht, rfl⟩
      | http11 =>
          exact ⟨s, str "1.1" ++ t, 1, 49 :: t, 1, t, rfl, hs, rfl,
            scanUnsigned_last (d := 49) (by decide) ht, rfl⟩

/-! ### The front of a line -/

lemma parseMethod_word {m : HttpMethod} (hm : m ≠ .unset) (t : Bytes) :
    parseMethod (m.word ++ 32 :: t) = some m := by
  cases m with
  | unset => exact absurd rfl hm
  | get => rfl
  | head => rfl
  | post => rfl

lemma exists_of_parseMethod {line : Bytes} {m : HttpMethod} (h : parseMethod line = some m) :
    m ≠ .unset ∧ ∃ t, line = m.word ++ 32 :: t := by
  have hsplit {w : Bytes} (hw : (w ++ [32]).isPrefixOf line = true) : ∃ t, line = w ++ 32 :: t := by
    rw [List.isPrefixOf_iff_prefix] at hw
    obtain ⟨t, rfl⟩ := hw
    exact ⟨t, by simp⟩
  rw [parseMethod] at h
  split_ifs at h with hget hhead hpost
  · cases h
    exact ⟨by decide, hsplit hget⟩
  · cases h
    exact ⟨by decide, hsplit hhead⟩
  · cases h
    exact ⟨by decide, hsplit hpost⟩

/-- Where `process_logline` skips the method. -/
lemma length_word {m : HttpMethod} (hm : m ≠ .unset) :
    (if m = .get then 4 else 5) = m.word.length + 1 := by
  cases m with
  | unset => exact absurd rfl hm
  | get => rfl
  | head => rfl
  | post => rfl

/-- The request with the method. -/
def Conn.methodStored (m : HttpMethod) (c : Conn) : Conn :=
  c.upd fun r => { r with logline := true, method := m, httpVersion := .http10 }

/-- `process_logline` on a line that is split into its parts. -/
lemma processLogline_spans (cfg : Config) (env : Env) {c : Conn} {m : HttpMethod}
    {bs target rest : Bytes} (hm : m ≠ .unset) (hbs : All isBlank bs)
    (htarget : All isText target) (hstop : Stops isBlank (target ++ rest))
    (hstop' : Stops isText rest)
    (hline : c.req.streamString 0 = m.word ++ 32 :: (bs ++ (target ++ rest)))
    (hlen : 5 ≤ (c.req.streamString 0).length) :
    processLogline cfg env c =
      if maxHeaderLength < target.length then
        (false, sendRBadRequest cfg env (c.methodStored m))
      else
        match storeTarget (c.methodStored m).req (m.word.length + 1 + bs.length) target with
        | none => (false, sendRBadRequest cfg env (c.methodStored m))
        | some r => loglineVersion cfg env rest { c with req := r } := by
  have hskip : (c.req.streamString 0).drop (m.word.length + 1) = bs ++ (target ++ rest) := by
    rw [hline, ← List.drop_drop, List.drop_left]
    rfl
  have hblanks : (bs ++ (target ++ rest)).takeWhile (· == 32) = bs :=
    takeWhile_span (p := isBlank) hbs hstop
  have hdrop : (c.req.streamString 0).drop (m.word.length + 1 + bs.length) = target ++ rest := by
    rw [← List.drop_drop, hskip, List.drop_left]
  have htake : (target ++ rest).takeWhile (· != 32) = target :=
    takeWhile_span (p := isText) htarget hstop'
  have hleft : (target ++ rest).dropWhile (· != 32) = rest :=
    dropWhile_span (p := isText) htarget hstop'
  have hmethod : parseMethod (c.req.streamString 0) = some m := by
    rw [hline, parseMethod_word hm]
  unfold processLogline
  extract_lets c₁ line
  have hl : line = c.req.streamString 0 := rfl
  clear_value line
  rw [hl, if_neg (not_lt.mpr hlen), hmethod]
  dsimp -zeta only
  extract_lets c₂ blank start target' rest'
  have hblank : blank = m.word.length + 1 := length_word hm
  clear_value blank
  subst hblank
  have hs : start = m.word.length + 1 + bs.length := by
    simp only [start, hskip, hblanks]
  clear_value start
  subst hs
  have ht : target' = target := by
    simp only [target', hdrop, htake]
  have hr : rest' = rest := by
    simp only [rest', hdrop, hleft]
  clear_value target' rest'
  subst ht hr
  rfl

/-! ### The target -/

/-- A byte that belongs to the name of a host. -/
def isHostByte (b : UInt8) : Bool := b != 47

/-- The request with the parts of a target that begins at the offset `start`. -/
def Request.targetStored (start : ℕ) (uri : Bytes) (r : Request) : Option Bytes → Request
  | none => { r with requestUri := uri }
  | some host => { r with
      requestUri := uri
      headerHost := some (start + 7)
      clientStream := r.clientStream.store (start + 7 + host.length) [0] }

/-- An absolute target is split behind its host. -/
lemma storeTarget_absolute (r : Request) (start : ℕ) {host path : Bytes}
    (hhost : All isHostByte host) (hpath : Stops isHostByte path) :
    storeTarget r start (str "http://" ++ (host ++ path)) =
      if host = [] ∨ path = [] then none else some (r.targetStored start path (some host)) := by
  have htake : (host ++ path).takeWhile (· != 47) = host :=
    takeWhile_span (p := isHostByte) hhost hpath
  have hleft : (host ++ path).dropWhile (· != 47) = path :=
    dropWhile_span (p := isHostByte) hhost hpath
  have hscheme : (str "http://").isPrefixOf (str "http://" ++ (host ++ path)) = true := by
    rw [List.isPrefixOf_iff_prefix]
    exact List.prefix_append _ _
  have hdrop : (str "http://" ++ (host ++ path)).drop 7 = host ++ path := rfl
  rw [storeTarget, if_pos hscheme]
  simp only [hdrop, htake, hleft]
  rfl

lemma storeTarget_parts {target uri : Bytes} {host : Option Bytes}
    (h : TargetText target host uri) (r : Request) (start : ℕ) :
    storeTarget r start target = some (r.targetStored start uri host) := by
  cases h with
  | relative h =>
      rw [← List.isPrefixOf_iff_prefix] at h
      rw [storeTarget, if_neg h]
      rfl
  | @absolute host path hne hslash =>
      have hall : All isHostByte host := by
        intro b hb
        have hb47 : b ≠ 47 := fun heq => hslash (heq ▸ hb)
        simpa [isHostByte] using hb47
      rw [storeTarget_absolute r start hall (stops_cons rfl), if_neg (by simp [hne])]

/-- A target that is not refused has parts. -/
lemma exists_parts {r r' : Request} {start : ℕ} {target : Bytes}
    (h : storeTarget r start target = some r') : ∃ host uri, TargetText target host uri := by
  by_cases habs : str "http://" <+: target
  swap
  · exact ⟨none, target, .relative habs⟩
  obtain ⟨t, rfl⟩ := habs
  obtain ⟨host, path, rfl, hhost, hstop⟩ := exists_span isHostByte t
  rw [storeTarget_absolute r start hhost hstop] at h
  split_ifs at h with hnil
  rw [not_or] at hnil
  cases path with
  | nil => exact absurd rfl hnil.2
  | cons b path =>
      have hb : b = 47 := by simpa [isHostByte] using hstop b path rfl
      subst hb
      refine ⟨some host, 47 :: path, .absolute hnil.1 fun hmem => ?_⟩
      exact absurd (hhost 47 hmem) (by decide)

/-- The name of the host can be read where it stands. -/
lemma targetStored_host {r : Request} (hnone : r.headerHost = none) {front target rest uri : Bytes}
    {host : Option Bytes} (hline : r.streamString 0 = front ++ (target ++ rest))
    (h : TargetText target host uri) :
    (r.targetStored front.length uri host).headerHost.map
      (r.targetStored front.length uri host).streamString = host := by
  cases h with
  | relative =>
      have hkept : (r.targetStored front.length target none).headerHost = none := hnone
      rw [hkept]
      rfl
  | @absolute host path hne hslash =>
      have hat : r.streamString (front.length + 7) = host ++ (47 :: path ++ rest) := by
        have hlen : front.length + 7 ≤ (r.clientStream.cstr 0 clientStreamSize).length := by
          have hstr : r.clientStream.cstr 0 clientStreamSize = r.streamString 0 := rfl
          rw [hstr, hline, List.length_append, List.length_append, List.length_append]
          have hseven : (str "http://").length = 7 := rfl
          omega
        have hdrop := Mem.cstr_drop _ hlen
        rw [Nat.zero_add] at hdrop
        rw [Request.streamString, ← hdrop]
        have hstr : r.clientStream.cstr 0 clientStreamSize = r.streamString 0 := rfl
        rw [hstr, hline, ← List.drop_drop, List.drop_left, List.append_assoc, List.append_assoc]
        rfl
      have hcut : (r.clientStream.store (front.length + 7 + host.length) [0]).cstr
          (front.length + 7) (clientStreamSize - (front.length + 7)) = host := by
        rw [Mem.cstr_store_zero, ← Request.streamString, hat, List.take_left]
        rw [← Request.streamString, hat, List.length_append]
        exact Nat.le_add_right _ _
      exact congrArg some hcut

/-! ### `process_logline` -/

/-- The request with a version. -/
def Request.versionStored (cfg : Config) (v : HttpVersion) (r : Request) : Request :=
  { r with
    httpVersion := v
    keepalive := if v = .http11 then .active else r.keepalive
    cgiEnvIndex := cfg.commonCgiEnv.length }

lemma loglineVersion_accepted {cfg : Config} {env : Env} {s : Bytes} {v : HttpVersion} {c : Conn}
    (hv : parseVersion s = some v) (hhead : c.req.method = .head → v ≠ .http09) :
    loglineVersion cfg env s c = (true, c.upd (Request.versionStored cfg v)) := by
  rw [loglineVersion, hv]
  exact if_neg fun h => hhead h.1 h.2

/-- What is accepted ends in a version. -/
lemma exists_version {cfg : Config} {env : Env} {s : Bytes} {c : Conn}
    (h : (loglineVersion cfg env s c).1 = true) :
    ∃ v, parseVersion s = some v ∧ (c.req.method = .head → v ≠ .http09) := by
  unfold loglineVersion at h
  cases hv : parseVersion s with
  | none =>
      rw [hv] at h
      cases h
  | some v =>
      rw [hv] at h
      dsimp -zeta only at h
      extract_lets d at h
      refine ⟨v, rfl, fun hhead hversion => ?_⟩
      have hrefused : d.req.method = .head ∧ v = .http09 := ⟨hhead, hversion⟩
      rw [if_pos hrefused] at h
      cases h

namespace LineFront

variable {f : LineFront} {rest : Bytes}

lemma Before.stops (h : f.Before rest) : Stops isBlank (f.target ++ rest) := by
  cases htarget : f.target with
  | nil =>
      rw [h.2 htarget]
      exact stops_nil
  | cons b t =>
      have hb : isText b = true := f.target_text b (htarget ▸ List.mem_cons_self)
      exact stops_isBlank _ (by simpa [isText] using hb)

/-- What stands in front of the target. -/
def head (f : LineFront) : Bytes := f.method.word ++ f.blanks

/-- The request with the front of its line. -/
def stored (f : LineFront) (c : Conn) : Conn :=
  { c with req := (c.methodStored f.method).req.targetStored f.head.length f.uri f.host }

/-- **The front is scanned**, and what is behind it is left for the version. -/
lemma processLogline_front (cfg : Config) (env : Env) {c : Conn}
    (hline : f.text ++ rest = c.req.streamString 0) (hbefore : f.Before rest)
    (hlen : 5 ≤ (c.req.streamString 0).length) :
    processLogline cfg env c = loglineVersion cfg env rest (f.stored c) := by
  obtain ⟨b, bs, hblanks⟩ := List.exists_cons_of_ne_nil f.blanks_ne
  have hall : All isBlank (b :: bs) := hblanks ▸ f.blanks_blank
  obtain rfl : b = 32 := by simpa [isBlank] using hall b List.mem_cons_self
  have hsplit : c.req.streamString 0 = f.method.word ++ 32 :: (bs ++ (f.target ++ rest)) := by
    rw [← hline, text, hblanks]
    simp
  have hhead : f.method.word.length + 1 + bs.length = f.head.length := by
    rw [head, hblanks, List.length_append, List.length_cons]
    omega
  rw [processLogline_spans cfg env f.method_ne (fun b hb => hall b (List.mem_cons_of_mem _ hb))
    f.target_text hbefore.stops hbefore.1 hsplit hlen, if_neg (not_lt.mpr f.target_le), hhead,
    storeTarget_parts f.target_parts]
  rfl

end LineFront

/-- **A line without a front is refused.** -/
lemma exists_front_or_refused (cfg : Config) (env : Env) (c : Conn) :
    (5 ≤ (c.req.streamString 0).length ∧
      ∃ (f : LineFront) (rest : Bytes), f.text ++ rest = c.req.streamString 0 ∧ f.Before rest) ∨
    (processLogline cfg env c).1 = false := by
  by_cases hlen : 5 ≤ (c.req.streamString 0).length
  swap
  · right
    rw [processLogline]
    exact congrArg Prod.fst (if_pos (not_le.mp hlen))
  cases hmethod : parseMethod (c.req.streamString 0) with
  | none =>
      right
      unfold processLogline
      extract_lets c₁ line
      have hl : line = c.req.streamString 0 := rfl
      rw [hl, if_neg (not_lt.mpr hlen), hmethod]
  | some m =>
      obtain ⟨hm, t, hline⟩ := exists_of_parseMethod hmethod
      obtain ⟨bs, t, rfl, hbs, hstop⟩ := exists_span isBlank t
      obtain ⟨target, rest, rfl, htarget, hstop'⟩ := exists_span isText t
      have hspans := processLogline_spans cfg env hm hbs htarget hstop hstop' hline hlen
      by_cases hlong : maxHeaderLength < target.length
      · rw [if_pos hlong] at hspans
        exact Or.inr (congrArg Prod.fst hspans)
      rw [if_neg hlong] at hspans
      cases hstore : storeTarget (c.methodStored m).req (m.word.length + 1 + bs.length) target with
      | none =>
          rw [hstore] at hspans
          exact Or.inr (congrArg Prod.fst hspans)
      | some r =>
          obtain ⟨host, uri, hparts⟩ := exists_parts hstore
          let f : LineFront := ⟨m, 32 :: bs, target, host, uri, hm, List.cons_ne_nil _ _,
            All.cons rfl hbs, htarget, hparts, not_lt.mp hlong⟩
          refine Or.inl ⟨hlen, f, rest, ?_, hstop', fun hnil => ?_⟩
          · rw [hline, LineFront.text]
            simp [f]
          · -- the spaces would have gone on
            have hnil' : target = [] := hnil
            rw [hnil', List.nil_append] at hstop
            cases rest with
            | nil => rfl
            | cons b s =>
                have hblank := hstop b s rfl
                have htext := hstop' b s rfl
                rw [isText, bne_eq_false_iff_eq] at htext
                rw [htext] at hblank
                exact absurd hblank (by decide)

/-- What an accepted line leaves: its front, and a version. -/
lemma processLogline_accepted {cfg : Config} {env : Env} {c d : Conn}
    (h : processLogline cfg env c = (true, d)) :
    ∃ (f : LineFront) (v : HttpVersion), d = (f.stored c).upd (Request.versionStored cfg v) := by
  have haccept : (processLogline cfg env c).1 = true := by rw [h]
  rcases exists_front_or_refused cfg env c with ⟨hlen, f, rest, hline, hbefore⟩ | hrefused
  · have hfront := LineFront.processLogline_front cfg env hline hbefore hlen
    rw [hfront] at haccept
    obtain ⟨v, hparse, hhead⟩ := exists_version haccept
    rw [loglineVersion_accepted hparse hhead, h, Prod.mk.injEq] at hfront
    exact ⟨f, v, hfront.2⟩
  · rw [hrefused] at haccept
    cases haccept

/-! ### The grammar -/

lemma isText_word (m : HttpMethod) : All isText m.word := by
  cases m <;> exact List.all_eq_true.mp rfl

lemma word_injective : Function.Injective HttpMethod.word := by
  intro m m' h
  cases m <;> cases m' <;> first
    | rfl
    | exact absurd h (by decide)

/-- A line has one front. -/
lemma LineFront.text_unique {f f' : LineFront} {rest rest' : Bytes} (h : f.Before rest)
    (h' : f'.Before rest') (heq : f.text ++ rest = f'.text ++ rest') :
    f.method = f'.method ∧ rest = rest' := by
  have hblanks (g : LineFront) (s : Bytes) : Stops isText (g.blanks ++ s) := by
    obtain ⟨b, bs, hcons⟩ := List.exists_cons_of_ne_nil g.blanks_ne
    have hb : isBlank b = true := g.blanks_blank b (hcons ▸ List.mem_cons_self)
    have hb' : b = 32 := by simpa [isBlank] using hb
    rw [hcons, hb']
    exact stops_cons rfl
  simp only [text, List.append_assoc] at heq
  obtain ⟨hmethod, heq⟩ := span_unique (isText_word _) (isText_word _) (hblanks f _)
    (hblanks f' _) heq
  obtain ⟨-, heq⟩ := span_unique f.blanks_blank f'.blanks_blank h.stops h'.stops heq
  obtain ⟨-, heq⟩ := span_unique f.target_text f'.target_text h.1 h'.1 heq
  exact ⟨word_injective hmethod, heq⟩

/-- `process_logline` accepts exactly the lines of the grammar, and stores the parts of a line
that it accepts. -/
structure ReadsLine (cfg : Config) (env : Env) (c : Conn) : Prop where
  returns : (processLogline cfg env c).1 = true ↔
    ∃ w : RequestLine, w.text = c.req.streamString 0
  stores : ∀ w : RequestLine, w.text = c.req.streamString 0 →
    (processLogline cfg env c).2.req.method = w.front.method ∧
      (processLogline cfg env c).2.req.httpVersion = w.version ∧
      (processLogline cfg env c).2.req.requestUri = w.front.uri ∧
      (processLogline cfg env c).2.req.headerHost.map
        (processLogline cfg env c).2.req.streamString = w.front.host

/-- Where `sscanf` finds a version, there is one. -/
def WritesVersion (line : Bytes) : Prop :=
  ∀ (f : LineFront) (rest : Bytes) (v : HttpVersion), f.text ++ rest = line → f.Before rest →
    5 ≤ line.length → LooseVersion rest v → (f.method = .head → v ≠ .http09) →
      VersionText rest v

/-- The method is stored with the front. -/
lemma LineFront.stored_method (f : LineFront) (c : Conn) : (f.stored c).req.method = f.method := by
  rw [stored]
  cases f.host <;> rfl

/-- A line of the grammar is accepted. -/
lemma RequestLine.processLogline_eq (w : RequestLine) (cfg : Config) (env : Env) {c : Conn}
    (hline : w.text = c.req.streamString 0) :
    processLogline cfg env c
      = (true, (w.front.stored c).upd (Request.versionStored cfg w.version)) := by
  have hlen : 5 ≤ (c.req.streamString 0).length := hline ▸ w.five_le
  rw [LineFront.processLogline_front cfg env hline w.before hlen]
  refine loglineVersion_accepted w.reads.parseVersion fun hhead => w.head ?_
  rw [← w.front.stored_method c, hhead]

/-- Its parts are stored. -/
lemma RequestLine.stores (w : RequestLine) (cfg : Config) {c : Conn}
    (hhost : c.req.headerHost = none) (hline : w.text = c.req.streamString 0) :
    let r := ((w.front.stored c).upd (Request.versionStored cfg w.version)).req
    r.method = w.front.method ∧ r.httpVersion = w.version ∧ r.requestUri = w.front.uri ∧
      r.headerHost.map r.streamString = w.front.host := by
  intro r
  have huri : (w.front.stored c).req.requestUri = w.front.uri := by
    rw [LineFront.stored]
    cases w.front.host <;> rfl
  have hsplit : (c.methodStored w.front.method).req.streamString 0
      = w.front.head ++ (w.front.target ++ w.rest) := by
    have hstr : (c.methodStored w.front.method).req.streamString 0 = c.req.streamString 0 := rfl
    rw [hstr, ← hline, text, LineFront.text, LineFront.head]
    simp
  have hunset : (c.methodStored w.front.method).req.headerHost = none := hhost
  exact ⟨w.front.stored_method c, rfl, huri,
    targetStored_host hunset hsplit w.front.target_parts⟩

/-- **The grammar of request lines**: for a request whose host is not set, `process_logline`
accepts the lines of the grammar and no others, and stores the parts, exactly if what `sscanf`
takes for the version is written as one. -/
theorem processLogline_reads_iff (cfg : Config) (env : Env) (c : Conn)
    (hhost : c.req.headerHost = none) :
    ReadsLine cfg env c ↔ WritesVersion (c.req.streamString 0) := by
  constructor
  · intro h f rest v hline hbefore hlen hloose hhead
    have hparse : parseVersion rest = some v := parseVersion_eq_some_iff.mpr (Or.inr hloose)
    have haccept : (processLogline cfg env c).1 = true := by
      rw [LineFront.processLogline_front cfg env hline hbefore hlen,
        loglineVersion_accepted hparse fun hm => hhead (by rw [← f.stored_method c, hm])]
    obtain ⟨w, hw⟩ := h.returns.mp haccept
    obtain ⟨-, hrest⟩ := LineFront.text_unique hbefore w.before (hline.trans hw.symm)
    have hversion := w.reads.parseVersion
    rw [← hrest, hparse, Option.some.injEq] at hversion
    rw [hrest, hversion]
    exact w.reads
  · intro h
    refine ⟨⟨fun haccept => ?_, ?_⟩, fun w hw => ?_⟩
    · rcases exists_front_or_refused cfg env c with ⟨hlen, f, rest, hline, hbefore⟩ | hrefused
      swap
      · rw [hrefused] at haccept
        cases haccept
      rw [LineFront.processLogline_front cfg env hline hbefore hlen] at haccept
      obtain ⟨v, hparse, hhead⟩ := exists_version haccept
      rw [f.stored_method] at hhead
      have hreads : VersionText rest v := by
        rcases parseVersion_eq_some_iff.mp hparse with ⟨hblank, rfl⟩ | hloose
        · exact .absent hblank
        · exact h f rest v hline hbefore hlen hloose hhead
      exact ⟨⟨f, rest, v, hbefore, hreads, hline ▸ hlen, hhead⟩, hline⟩
    · rintro ⟨w, hw⟩
      rw [w.processLogline_eq cfg env hw]
    · rw [w.processLogline_eq cfg env hw]
      exact w.stores cfg hhost hw

/-- A request with its first line. -/
def requestWithLine (line : String) : Conn where
  req :=
    { fd := 4
      clientStream := Mem.store (fun _ => 0) 0 (str line) }

/-- `GET /`. -/
def rootFront : LineFront where
  method := .get
  blanks := str " "
  target := str "/"
  host := none
  uri := str "/"
  method_ne := by decide
  blanks_ne := by decide
  blanks_blank := List.all_eq_true.mp rfl
  target_text := List.all_eq_true.mp rfl
  target_parts := .relative (by decide)
  target_le := by decide

/-- Anything may follow a version. -/
theorem processLogline_junk : ¬ReadsLine {} {} (requestWithLine "GET / HTTP/1.1x") := by
  intro h
  obtain ⟨w, hw⟩ := h.returns.mp (by decide +kernel)
  have hline : rootFront.text ++ str " HTTP/1.1x"
      = (requestWithLine "GET / HTTP/1.1x").req.streamString 0 := by decide +kernel
  have hbefore : rootFront.Before (str " HTTP/1.1x") := ⟨stops_cons rfl, by decide⟩
  have hrest := (LineFront.text_unique hbefore w.before (hline.trans hw.symm)).2
  have hx : 120 ∈ w.rest := by
    rw [← hrest]
    decide
  obtain ⟨v, hreads⟩ : ∃ v, VersionText w.rest v := ⟨w.version, w.reads⟩
  have hnoBlank {s : Bytes} (hs : All isBlank s) : 120 ∉ s := fun hmem =>
    absurd (hs 120 hmem) (by decide)
  generalize w.rest = rest at hx hreads
  cases hreads with
  | absent hs => exact hnoBlank hs hx
  | @written v s t _ hs _ ht =>
      have hword : 120 ∉ v.word := by cases v <;> decide
      simp only [List.mem_append, hnoBlank hs, hnoBlank ht, hword, or_self] at hx

/-- `HEAD  http://host:80/a`. -/
def absoluteFront : LineFront where
  method := .head
  blanks := str "  "
  target := str "http://host:80/a"
  host := some (str "host:80")
  uri := str "/a"
  method_ne := by decide
  blanks_ne := by decide
  blanks_blank := List.all_eq_true.mp rfl
  target_text := List.all_eq_true.mp rfl
  target_parts := @TargetText.absolute (str "host:80") (str "a") (by decide) (by decide)
  target_le := by decide

/-- An absolute target. -/
theorem processLogline_absolute :
    ReadsLine {} {} (requestWithLine "HEAD  http://host:80/a  HTTP/1.1 ") := by
  refine (processLogline_reads_iff {} {} _ rfl).mpr ?_
  intro f rest v htext hbefore _ hloose _
  have hline : absoluteFront.text ++ str "  HTTP/1.1 "
      = (requestWithLine "HEAD  http://host:80/a  HTTP/1.1 ").req.streamString 0 := by
    decide +kernel
  have hbefore' : absoluteFront.Before (str "  HTTP/1.1 ") := ⟨stops_cons rfl, by decide⟩
  have hrest := (LineFront.text_unique hbefore hbefore' (htext.trans hline.symm)).2
  have hparse : parseVersion (str "  HTTP/1.1 ") = some .http11 := by decide
  have hversion := parseVersion_eq_some_iff.mpr (Or.inr hloose)
  rw [hrest, hparse, Option.some.injEq] at hversion
  rw [hrest, ← hversion]
  exact @VersionText.written .http11 (str "  ") (str " ") (by decide)
    (List.all_eq_true.mp rfl) (by decide) (List.all_eq_true.mp rfl)

end Yabwf
