import Yabwf.MovedPage
import Yabwf.IndexDir

/-!
What `req_write_escape_html` writes, and the pages that echo a text with it.

* `MarkupFree`, `unescapeHtml`: a text that is no markup, and reading entities back.
* `writeEscapeHtml`: `req_write_escape_html` with its return value.
* `writeEscapeHtml_cases`: it writes what the indexer's function does, or gives the request up.
* `EchoPage`: a page whose body holds a text that is no markup between two fixed ones.
* `writeEscapeHtml_safe`: the whole law, with the pages of `response.c`.
-/

namespace Yabwf

open Memory

/-! ### Text that is no markup -/

/-- The four entities. -/
def entities : List Bytes := [str "&gt;", str "&lt;", str "&amp;", str "&quot;"]

/-- No angle bracket and no quotation mark, and every ampersand begins an entity. -/
structure MarkupFree (t : Bytes) : Prop where
  plain : ∀ b ∈ t, b ≠ 60 ∧ b ≠ 62 ∧ b ≠ 34
  entity : ∀ i, t[i]? = some 38 → ∃ e ∈ entities, e <+: t.drop i

/-- The entities replaced by what they stand for. -/
def unescapeHtml : Bytes → Bytes
  | 38 :: 103 :: 116 :: 59 :: t => 62 :: unescapeHtml t
  | 38 :: 108 :: 116 :: 59 :: t => 60 :: unescapeHtml t
  | 38 :: 97 :: 109 :: 112 :: 59 :: t => 38 :: unescapeHtml t
  | 38 :: 113 :: 117 :: 111 :: 116 :: 59 :: t => 34 :: unescapeHtml t
  | b :: t => b :: unescapeHtml t
  | [] => []

/-- The code of one character. -/
lemma escapeHtml_cases (b : UInt8) :
    escapeHtml b ∈ entities ∨ (escapeHtml b = [b] ∧ b ≠ 38 ∧ b ≠ 60 ∧ b ≠ 62 ∧ b ≠ 34) := by
  rw [escapeHtml]
  split_ifs with h₁ h₂ h₃ h₄
  · exact Or.inl (by decide)
  · exact Or.inl (by decide)
  · exact Or.inl (by decide)
  · exact Or.inl (by decide)
  · exact Or.inr ⟨rfl, h₃, h₂, h₁, h₄⟩

/-- An entity holds no markup, and one ampersand, at its beginning. -/
lemma entities_plain : ∀ e ∈ entities, (∀ b ∈ e, b ≠ 60 ∧ b ≠ 62 ∧ b ≠ 34) ∧
    ∀ i < e.length, e[i]? = some 38 → i = 0 := by
  decide +kernel

/-- **Escaped text** is no markup. -/
lemma markupFree_flatMap (s : Bytes) : MarkupFree (s.flatMap escapeHtml) := by
  induction s with
  | nil => exact ⟨fun b hb => absurd hb List.not_mem_nil, fun i hi => by cases hi⟩
  | cons b s ih =>
      rw [List.flatMap_cons]
      refine ⟨fun x hx => ?_, fun i hi => ?_⟩
      · rcases List.mem_append.mp hx with hx | hx
        · rcases escapeHtml_cases b with he | ⟨he, -, h₁, h₂, h₃⟩
          · exact (entities_plain _ he).1 x hx
          · rw [he, List.mem_singleton] at hx
            rw [hx]
            exact ⟨h₁, h₂, h₃⟩
        · exact ih.plain x hx
      · rcases Nat.lt_or_ge i (escapeHtml b).length with hlt | hge
        · rw [List.getElem?_append_left hlt] at hi
          rcases escapeHtml_cases b with he | ⟨he, hb, -⟩
          · obtain rfl := (entities_plain _ he).2 i hlt hi
            exact ⟨_, he, List.prefix_append _ _⟩
          · rw [he] at hi hlt
            obtain rfl : i = 0 := Nat.lt_one_iff.mp hlt
            exact absurd (Option.some.inj hi) hb
        · rw [List.getElem?_append_right hge] at hi
          rw [List.drop_append, List.drop_eq_nil_of_le hge, List.nil_append]
          exact ih.entity _ hi

lemma unescapeHtml_plain {b : UInt8} (hb : b ≠ 38) (t : Bytes) :
    unescapeHtml (b :: t) = b :: unescapeHtml t := by
  rw [unescapeHtml]
  all_goals
    intro s h
    exact fun _ => hb h

/-- **Replacing the entities** recovers the text. -/
lemma unescapeHtml_flatMap (s : Bytes) : unescapeHtml (s.flatMap escapeHtml) = s := by
  induction s with
  | nil => rfl
  | cons b s ih =>
      rw [List.flatMap_cons, escapeHtml]
      split_ifs with h₁ h₂ h₃ h₄
      · rw [h₁]
        exact congrArg _ ih
      · rw [h₂]
        exact congrArg _ ih
      · rw [h₃]
        exact congrArg _ ih
      · rw [h₄]
        exact congrArg _ ih
      · rw [List.singleton_append, unescapeHtml_plain h₃, ih]

/-! ### `req_write_escape_html` -/

/-- What the loop of `req_write_escape_html` writes, and whether it gets to the end of the
string. -/
def htmlWritten (text : Text) (c : Conn) : Bytes × Bool :=
  let left := bufferSize - c.req.bufferEnd
  match text with
  | .elsewhere msg =>
      let r := escapeLoop 6 escapeHtml left msg
      (r.1, r.2.isEmpty)
  | .inBuffer off => escapeInPlace 6 escapeHtml (left + 1) c.req.buffer off c.req.bufferEnd left

/-- `req_write_escape_html`: `-1` for an error, otherwise how much is stored. -/
def writeEscapeHtml (text : Text) (c : Conn) : ℤ × Conn :=
  let r := htmlWritten text c
  let c := c.append r.1
  if r.2 then (c.req.bufferEnd, c)
  else (-1, if c.req.status = .dead then c else c.die)

lemma writeEscapeHtml_of_done {text : Text} {c : Conn} (h : (htmlWritten text c).2 = true) :
    writeEscapeHtml text c =
      (((c.append (htmlWritten text c).1).req.bufferEnd : ℤ), c.append (htmlWritten text c).1) :=
  if_pos h

lemma writeEscapeHtml_of_not_done {text : Text} {c : Conn} (h : (htmlWritten text c).2 = false) :
    writeEscapeHtml text c = (-1, if (c.append (htmlWritten text c).1).req.status = .dead then
      c.append (htmlWritten text c).1 else (c.append (htmlWritten text c).1).die) :=
  if_neg (by simp [h])

/-- The state is the one that the writer without its return value leaves. -/
lemma writeEscapeHtml_snd (text : Text) (c : Conn) :
    (writeEscapeHtml text c).2 = reqWriteEscapeHtml text c := by
  have hwriter : reqWriteEscapeHtml text c =
      if (htmlWritten text c).2 = true ∨ (c.append (htmlWritten text c).1).req.status = .dead then
        c.append (htmlWritten text c).1
      else (c.append (htmlWritten text c).1).die := by
    cases text with
    | elsewhere msg =>
        simp only [htmlWritten, List.isEmpty_iff]
        rfl
    | inBuffer off => rfl
  rw [hwriter]
  by_cases hdone : (htmlWritten text c).2 = true
  · rw [writeEscapeHtml_of_done hdone, if_pos (Or.inl hdone)]
  · rw [writeEscapeHtml_of_not_done (Bool.eq_false_iff.mpr hdone)]
    simp only [hdone, Bool.false_eq_true, false_or]

/-- The string that the function is given. -/
def Text.Holds (text : Text) (c : Conn) (s : Bytes) : Prop :=
  match text with
  | .elsewhere msg => msg = s
  | .inBuffer off => c.req.buffer.HasStr off s

/-- There are `n` bytes behind `buffer_end` that are free: they belong to the buffer, and the
string does not lie in them. -/
def Text.HasFree (text : Text) (c : Conn) (s : Bytes) (n : ℕ) : Prop :=
  c.req.bufferEnd + n ≤ bufferSize ∧
    match text with
    | .elsewhere _ => True
    | .inBuffer off => off + s.length < c.req.bufferEnd ∨ c.req.bufferEnd + n ≤ off

section

variable {u : Bytes} {left fuel : ℕ}

/-- The loop on a string that lies elsewhere: it stops where less than six bytes are left. -/
lemma escapeLoop_html (left : ℕ) (msg : Bytes) :
    ((escapeLoop 6 escapeHtml left msg).2 = [] →
      (escapeLoop 6 escapeHtml left msg).1 = msg.flatMap escapeHtml) ∧
      (6 * msg.length ≤ left → (escapeLoop 6 escapeHtml left msg).2 = []) := by
  induction msg generalizing left with
  | nil => exact ⟨fun _ => rfl, fun _ => rfl⟩
  | cons b msg ih =>
      rw [escapeLoop, List.length_cons]
      split_ifs with hleft
      · exact ⟨False.elim, fun h => by omega⟩
      · have hle := (length_escapeHtml_le b).1
        obtain ⟨htext, hroom⟩ := ih (left - (escapeHtml b).length)
        refine ⟨fun h => ?_, fun h => hroom (by omega)⟩
        rw [List.flatMap_cons, ← htext h]

/-- Where the text of a character runs into what is still to be read, the loop finds no end. -/
lemma escapeInPlace_hit {m : Mem} {inp dest : ℕ} {b : UInt8} (hb : b ≠ 0)
    (hstr : m.HasStr (inp + 1) u) (hlt : inp + 1 < dest + (escapeHtml b).length)
    (hle : dest ≤ inp + 1 + u.length) :
    (escapeInPlace 6 escapeHtml fuel (m.store dest (escapeHtml b)) (inp + 1)
      (dest + (escapeHtml b).length) left).2 = false := by
  refine escapeInPlace_overrun escaping_escapeHtml hlt fun i hi hid => ?_
  rcases Nat.lt_or_ge i dest with hold | hnew
  · rw [Mem.store_of_lt m _ hold]
    obtain ⟨k, rfl⟩ := Nat.exists_eq_add_of_le hi
    have hk : k < u.length := by omega
    rw [hstr.apply_of_lt hk]
    exact fun h0 => hstr.1 (h0 ▸ List.getElem_mem hk)
  · obtain ⟨k, rfl⟩ := Nat.exists_eq_add_of_le hnew
    have hk : k < (escapeHtml b).length := by omega
    rw [Mem.store_of_mem m _ hk]
    exact fun h0 => escaping_escapeHtml.noZero b hb (h0 ▸ List.getElem_mem hk)

/-- On a string in the buffer, a loop that finds an end has written the string as it was: where
its text runs into what is still to be read, there is no end any more. -/
lemma escapeInPlace_html {m : Mem} {inp dest : ℕ} (hstr : m.HasStr inp u)
    (hdone : (escapeInPlace 6 escapeHtml fuel m inp dest left).2 = true) :
    (escapeInPlace 6 escapeHtml fuel m inp dest left).1 = u.flatMap escapeHtml := by
  induction u generalizing fuel m inp dest left with
  | nil =>
      cases fuel with
      | zero => cases hdone
      | succ fuel =>
          rw [escapeInPlace, if_pos (Mem.HasStr.nil_iff.mp hstr)]
          rfl
  | cons b u ih =>
      cases fuel with
      | zero => cases hdone
      | succ fuel =>
          obtain ⟨hb, hb0, hrest⟩ := Mem.HasStr.cons_iff.mp hstr
          rw [escapeInPlace, hb, if_neg hb0] at hdone ⊢
          split_ifs at hdone ⊢ with hleft
          have hmiss : dest + (escapeHtml b).length ≤ inp + 1 ∨ inp + 1 + u.length < dest := by
            by_contra hhit
            rw [not_or] at hhit
            rw [escapeInPlace_hit hb0 hrest (by omega) (by omega)] at hdone
            cases hdone
          have hkeep : (m.store dest (escapeHtml b)).HasStr (inp + 1) u := by
            rcases hmiss with hbehind | hfront
            · exact hrest.congr fun i hi => Mem.store_of_le m _ (by omega)
            · exact hrest.store_of_gt hfront _
          rw [List.flatMap_cons]
          exact congrArg _ (ih hkeep hdone)

/-- What the loop writes is escaped text, whatever it reads. -/
lemma exists_escapeInPlace (fuel : ℕ) (m : Mem) (inp dest left : ℕ) :
    ∃ s : Bytes, (escapeInPlace 6 escapeHtml fuel m inp dest left).1 = s.flatMap escapeHtml := by
  induction fuel generalizing m inp dest left with
  | zero => exact ⟨[], rfl⟩
  | succ fuel ih =>
      rw [escapeInPlace]
      split_ifs
      · exact ⟨[], rfl⟩
      · exact ⟨[], rfl⟩
      · obtain ⟨s, hs⟩ := ih (m.store dest (escapeHtml (m inp))) (inp + 1)
          (dest + (escapeHtml (m inp)).length) (left - (escapeHtml (m inp)).length)
        exact ⟨m inp :: s, by rw [List.flatMap_cons, ← hs]⟩

/-- The loop gets to the end of a string in the buffer that is out of its way. -/
lemma escapeInPlace_room {m : Mem} {inp dest : ℕ} (hstr : m.HasStr inp u)
    (hfree : inp + u.length < dest ∨ dest + 6 * u.length ≤ inp) (hroom : 6 * u.length ≤ left)
    (hfuel : u.length < fuel) :
    (escapeInPlace 6 escapeHtml fuel m inp dest left).2 = true := by
  induction u generalizing fuel m inp dest left with
  | nil =>
      obtain ⟨fuel, rfl⟩ := Nat.exists_eq_add_of_lt hfuel
      rw [List.length_nil, Nat.zero_add, escapeInPlace, if_pos (Mem.HasStr.nil_iff.mp hstr)]
  | cons b u ih =>
      obtain ⟨fuel, rfl⟩ := Nat.exists_eq_add_of_lt (Nat.zero_lt_of_lt hfuel)
      obtain ⟨hb, hb0, hrest⟩ := Mem.HasStr.cons_iff.mp hstr
      have hle := (length_escapeHtml_le b).1
      rw [List.length_cons] at hfree hroom hfuel
      rw [Nat.zero_add, escapeInPlace, hb, if_neg hb0, if_neg (by omega)]
      rcases hfree with hfront | hbehind
      · exact ih (hrest.store_of_gt (by omega) _) (Or.inl (by omega)) (by omega) (by omega)
      · exact ih (hrest.congr fun i hi => Mem.store_of_le m _ (by omega)) (Or.inr (by omega))
          (by omega) (by omega)

end

/-- What is written, and how the function ends: it has written what the indexer's function makes of
the string, and returns how much is stored; or it has given the request up, within the buffer. -/
lemma writeEscapeHtml_cases {text : Text} {c : Conn} {s : Bytes} (hs : text.Holds c s)
    (hfill : c.req.bufferEnd ≤ bufferSize) :
    (Wrote (htmlEscapeLoop s) c (writeEscapeHtml text c).2 ∧
        (writeEscapeHtml text c).1 = (writeEscapeHtml text c).2.req.bufferEnd) ∨
      ((writeEscapeHtml text c).1 = -1 ∧ (writeEscapeHtml text c).2.req.status = .dead ∧
        (writeEscapeHtml text c).2.req.bufferEnd ≤ bufferSize) := by
  have hlen : (htmlWritten text c).1.length ≤ bufferSize - c.req.bufferEnd := by
    cases text with
    | elsewhere msg => exact length_escapeLoop_le escaping_escapeHtml.le msg _
    | inBuffer off => exact length_escapeInPlace_le escaping_escapeHtml.le _ _ _ _ _
  cases hdone : (htmlWritten text c).2 with
  | true =>
      have htext : (htmlWritten text c).1 = htmlEscapeLoop s := by
        rw [htmlEscapeLoop_eq]
        cases text with
        | elsewhere msg =>
            obtain rfl : msg = s := hs
            exact (escapeLoop_html _ msg).1 (List.isEmpty_iff.mp hdone)
        | inBuffer off => exact escapeInPlace_html hs hdone
      rw [writeEscapeHtml_of_done hdone, htext]
      exact Or.inl ⟨append_wrote _ c, rfl⟩
  | false =>
      have hend : (c.append (htmlWritten text c).1).req.bufferEnd =
          c.req.bufferEnd + (htmlWritten text c).1.length := rfl
      rw [writeEscapeHtml_of_not_done hdone]
      refine Or.inr ⟨rfl, ?_, ?_⟩
      · split_ifs with hdead
        · exact hdead
        · rfl
      · dsimp only
        split_ifs
        · omega
        · have hdie : (c.append (htmlWritten text c).1).die.req.bufferEnd =
              c.req.bufferEnd + (htmlWritten text c).1.length := rfl
          omega

/-- There is no failure where six bytes are free for each character. -/
lemma writeEscapeHtml_room {text : Text} {c : Conn} {s : Bytes} (hs : text.Holds c s)
    (hfree : text.HasFree c s (6 * s.length)) : (writeEscapeHtml text c).1 ≠ -1 := by
  obtain ⟨hroom, hfree⟩ := hfree
  have hdone : (htmlWritten text c).2 = true := by
    cases text with
    | elsewhere msg =>
        obtain rfl : msg = s := hs
        exact List.isEmpty_iff.mpr ((escapeLoop_html _ msg).2 (by omega))
    | inBuffer off => exact escapeInPlace_room hs hfree (by omega) (by omega)
  rw [writeEscapeHtml_of_done hdone]
  have hpos : (0 : ℤ) ≤ ((c.append (htmlWritten text c).1).req.bufferEnd : ℤ) :=
    Int.natCast_nonneg _
  dsimp only
  omega

/-! ### Pages that echo a text -/

/-- The body of a page with a text in it. -/
def echoBody (before after : Bytes) (text : Request → Text) (c : Conn) : Conn :=
  c |> reqWrite before |> reqWriteEscapeHtml (text c.req) |> reqWrite after

/-- A page whose body holds, between two fixed texts, one that is no markup; or the request is
given up. -/
def EchoPage (cfg : Config) (env : Env) (page : Conn → Conn) : Prop :=
  ∃ code line fields before after text,
    page = sendRPage cfg env code line fields (echoBody before after text) ∧
      ∀ c : Conn, c.req.status.code ≤ ReqStatus.done.code →
        (∃ echo, MarkupFree echo ∧ Wrote (before ++ echo ++ after) c (echoBody before after text c)) ∨
          GaveUp c (echoBody before after text c)

/-- `send_r_unauthorized`. -/
def sendRUnauthorized (cfg : Config) (env : Env) (realmName : Bytes) : Conn → Conn :=
  sendRPage cfg env 401 " 401 Unauthorized\r\n"
    (fun c => c |> reqWrite (str "WWW-Authenticate: Basic realm=\"") |> reqWrite realmName
      |> reqWrite crlf |> htmlField)
    (uriBody ("<HTML><HEAD><TITLE>401 Unauthorized</TITLE></HEAD>\n" ++
      "<BODY><H1>401 Unauthorized</H1>\nYour client does not have permission to get URL ")
      " from this server.\n</BODY></HTML>\n")

/-- `send_r_length_required`. -/
def sendRLengthRequired (cfg : Config) (env : Env) : Conn → Conn :=
  sendRPage cfg env 411 " 411 Length Required\r\n"
    (fun c => c |> reqWrite (str "Content-Type: " ++ htmlType ++ crlf) |> printLastModified env
      |> printContentType cfg |> reqWrite crlf)
    (uriBody ("<HTML><HEAD><TITLE>411 Length Required</TITLE></HEAD>\n" ++
      "<BODY><H1>411 Length Required</H1>\nThe requested URL ")
      (" requires that a valid Content-Length header be " ++
        "sent with it.\n</BODY></HTML>\n"))

/-- Some text is escaped, or the request is given up. -/
lemma reqWriteEscapeHtml_echo (text : Text) {c : Conn}
    (hlive : c.req.status.code ≤ ReqStatus.done.code) :
    (∃ s : Bytes, Wrote (s.flatMap escapeHtml) c (reqWriteEscapeHtml text c)) ∨
      GaveUp c (reqWriteEscapeHtml text c) := by
  rw [← writeEscapeHtml_snd]
  cases hdone : (htmlWritten text c).2 with
  | true =>
      obtain ⟨s, hs⟩ : ∃ s : Bytes, (htmlWritten text c).1 = s.flatMap escapeHtml := by
        cases text with
        | elsewhere msg => exact ⟨msg, (escapeLoop_html _ msg).1 (List.isEmpty_iff.mp hdone)⟩
        | inBuffer off => exact exists_escapeInPlace _ _ _ _ _
      rw [writeEscapeHtml_of_done hdone, hs]
      exact Or.inl ⟨s, append_wrote _ c⟩
  | false =>
      have hstatus : (c.append (htmlWritten text c).1).req.status ≠ .dead := by
        intro hdead
        have hsame : (c.append (htmlWritten text c).1).req.status = c.req.status := rfl
        rw [← hsame, hdead] at hlive
        exact absurd hlive (by decide)
      rw [writeEscapeHtml_of_not_done hdone, if_neg hstatus]
      exact Or.inr ((append_wrote _ c).gaveUp (die_gaveUp _))

lemma GaveUp.escapeHtml {c c' : Conn} (h : GaveUp c c') (text : Text) :
    GaveUp c (reqWriteEscapeHtml text c') := by
  rw [← writeEscapeHtml_snd]
  have happend := h.append (htmlWritten text c').1
  cases hdone : (htmlWritten text c').2 with
  | true =>
      rw [writeEscapeHtml_of_done hdone]
      exact happend
  | false =>
      rw [writeEscapeHtml_of_not_done hdone, if_pos happend.dead]
      exact happend

lemma uriBody_echo (before after : String) :
    uriBody before after = echoBody (str before) (str after) fun r => .elsewhere r.requestUri :=
  rfl

lemma movedBody_echo (before : String) (url : Text) :
    movedBody before url
      = echoBody (str before) (str "\">here</A>.\n</BODY></HTML>\n") fun _ => url :=
  rfl

lemma echoBody_safe (before after : Bytes) (text : Request → Text) (c : Conn)
    (hlive : c.req.status.code ≤ ReqStatus.done.code) :
    (∃ echo, MarkupFree echo ∧ Wrote (before ++ echo ++ after) c (echoBody before after text c)) ∨
      GaveUp c (echoBody before after text c) := by
  rw [echoBody]
  rcases reqWrite_cases hlive before with hbefore | hbefore
  · have hlive' : (reqWrite before c).req.status.code ≤ ReqStatus.done.code := by
      rwa [hbefore.status]
    rcases reqWriteEscapeHtml_echo (text c.req) hlive' with ⟨s, hecho⟩ | hecho
    · have hboth := hbefore.trans hecho
      have hlive'' : (reqWriteEscapeHtml (text c.req) (reqWrite before c)).req.status.code ≤
          ReqStatus.done.code := by
        rwa [hecho.status]
      rcases reqWrite_cases hlive'' after with hafter | hafter
      · exact Or.inl ⟨_, markupFree_flatMap s, hboth.trans hafter⟩
      · exact Or.inr (hboth.gaveUp hafter)
    · exact Or.inr ((hbefore.gaveUp hecho).reqWrite after)
  · exact Or.inr ((hbefore.escapeHtml _).reqWrite after)

/-- A page of `sendRPage` with such a body is an echoing one. -/
lemma echoPage (cfg : Config) (env : Env) (code : ℕ) (line : String) (fields : Conn → Conn)
    (before after : Bytes) (text : Request → Text) :
    EchoPage cfg env (sendRPage cfg env code line fields (echoBody before after text)) :=
  ⟨code, line, fields, before, after, text, rfl, echoBody_safe before after text⟩

/-! ### The law -/

/-- **HTML escaping is safe.** `req_write_escape_html` appends what the indexer's function makes
of the string, or gives the request up, which it never does where six bytes are free for each
character; the text is no markup, and gives the string back; and so the pages that echo a URI or a
URL have no markup but their own. -/
theorem writeEscapeHtml_safe (text : Text) (c : Conn) (s : Bytes) (hs : text.Holds c s)
    (hfill : c.req.bufferEnd ≤ bufferSize) :
    (∃ t, htmlEscapeString s .given s.length = some t ∧
      ((Wrote t c (writeEscapeHtml text c).2 ∧
          (writeEscapeHtml text c).1 = (writeEscapeHtml text c).2.req.bufferEnd) ∨
        ((writeEscapeHtml text c).1 = -1 ∧ (writeEscapeHtml text c).2.req.status = .dead ∧
          (writeEscapeHtml text c).2.req.bufferEnd ≤ bufferSize)) ∧
      (text.HasFree c s (6 * s.length) → (writeEscapeHtml text c).1 ≠ -1) ∧
      MarkupFree t ∧ unescapeHtml t = s) ∧
    ∀ (cfg : Config) (env : Env),
      EchoPage cfg env (sendRForbidden cfg env) ∧ EchoPage cfg env (sendRNotFound cfg env) ∧
      EchoPage cfg env (sendRLengthRequired cfg env) ∧
      (∀ realmName, EchoPage cfg env (sendRUnauthorized cfg env realmName)) ∧
      (∀ url, EchoPage cfg env (sendRMovedPerm cfg env url)) ∧
      ∀ url moreHdr, EchoPage cfg env (sendRMovedTemp cfg env url moreHdr) := by
  refine ⟨⟨htmlEscapeLoop s, rfl, writeEscapeHtml_cases hs hfill, writeEscapeHtml_room hs, ?_, ?_⟩,
    fun cfg env => ⟨?_, ?_, ?_, fun _ => ?_, fun _ => ?_, fun _ _ => ?_⟩⟩
  · rw [htmlEscapeLoop_eq]
    exact markupFree_flatMap s
  · rw [htmlEscapeLoop_eq]
    exact unescapeHtml_flatMap s
  · rw [sendRForbidden, uriBody_echo]
    exact echoPage cfg env 403 _ _ _ _ _
  · rw [sendRNotFound, uriBody_echo]
    exact echoPage cfg env 404 _ _ _ _ _
  · rw [sendRLengthRequired, uriBody_echo]
    exact echoPage cfg env 411 _ _ _ _ _
  · rw [sendRUnauthorized, uriBody_echo]
    exact echoPage cfg env 401 _ _ _ _ _
  · rw [sendRMovedPerm, movedBody_echo]
    exact echoPage cfg env 301 _ _ _ _ _
  · rw [sendRMovedTemp, movedBody_echo]
    exact echoPage cfg env 302 _ _ _ _ _

theorem writeEscapeHtml_safe_tag :
    (writeEscapeHtml (.elsewhere (str "<a>")) { req := { fd := 5 } }).1 ≠ -1 ∧
      MarkupFree (str "&lt;a&gt;") := by
  obtain ⟨⟨t, ht, -, hroom, hfree, -⟩, -⟩ :=
    writeEscapeHtml_safe (.elsewhere (str "<a>")) { req := { fd := 5 } } (str "<a>") rfl (by decide)
  have htag : htmlEscapeString (str "<a>") .given (str "<a>").length = some (str "&lt;a&gt;") := by
    decide
  obtain rfl := Option.some.inj (ht.symm.trans htag)
  exact ⟨hroom ⟨by decide, trivial⟩, hfree⟩

end Yabwf
