import Yabwf.QueuedText

/-!
`send_r_moved_temp` with a URL that lies in the buffer it writes to.

* `escapeInPlace_exact`: an escaping writer that stays behind the string that it reads writes
  its escaping.
* `escapeInPlace_overtakes`: one that would pass it reads its own text, in which there is no end.
* `MovedFrom`, `movedPage`: the state, and the page as a text.
* `sendRMovedTemp_said`, `sendRMovedTemp_gaveUp`: the page is queued exactly when what is
  written in front of the anchor, and what escaping adds to the URL there, ends in front of it.
-/

namespace Yabwf

open Memory

/-! ### Writing towards the string that is read -/

/-- The codes of an escaping writer: they are short, and made of bytes other than zero. -/
structure Escaping (guardBand : ℕ) (escape : UInt8 → Bytes) : Prop where
  pos : ∀ b, 0 < (escape b).length
  le : ∀ b, (escape b).length ≤ guardBand
  noZero : ∀ b, b ≠ 0 → 0 ∉ escape b

lemma escaping_escapeHttp : Escaping 3 escapeHttp where
  pos b := by
    rw [escapeHttp]
    split_ifs <;> simp
  le b := by
    rw [escapeHttp]
    split_ifs <;> simp
  noZero b hb := by
    intro h
    rcases mem_escapeHttp h with ⟨h, -⟩ | h | h
    · exact hb h.symm
    · exact absurd h (by decide)
    · exact absurd h (by decide)

lemma escaping_escapeHtml : Escaping 6 escapeHtml where
  pos b := by
    rw [escapeHtml]
    split_ifs <;> simp [str]
  le b := by
    rw [escapeHtml]
    split_ifs <;> simp [str]
  noZero b hb := by
    rw [escapeHtml]
    split_ifs
    · decide
    · decide
    · decide
    · decide
    · exact fun h => hb (List.mem_singleton.mp h).symm

section

variable {guardBand : ℕ} {escape : UInt8 → Bytes} {m : Mem} {u : Bytes} {inp dest left fuel : ℕ}

lemma Escaping.length_le (hesc : Escaping guardBand escape) (u : Bytes) :
    u.length ≤ (u.flatMap escape).length := by
  induction u with
  | nil => exact le_rfl
  | cons b u ih =>
      have hb := hesc.pos b
      rw [List.flatMap_cons, List.length_append, List.length_cons]
      omega

/-- A writer that stays behind the string that it reads writes its escaping. -/
lemma escapeInPlace_exact (hesc : Escaping guardBand escape) (hstr : m.HasStr inp u)
    (hbehind : dest + (u.flatMap escape).length ≤ inp + u.length)
    (hroom : (u.flatMap escape).length + guardBand ≤ left + 1) (hfuel : u.length < fuel) :
    escapeInPlace guardBand escape fuel m inp dest left = (u.flatMap escape, true) := by
  induction u generalizing fuel m inp dest left with
  | nil =>
      obtain ⟨fuel, rfl⟩ := Nat.exists_eq_add_of_lt hfuel
      rw [List.length_nil, Nat.zero_add, escapeInPlace, if_pos (Mem.HasStr.nil_iff.mp hstr)]
      rfl
  | cons b u ih =>
      obtain ⟨fuel, rfl⟩ := Nat.exists_eq_add_of_lt (Nat.zero_lt_of_lt hfuel)
      obtain ⟨hb, hb0, hrest⟩ := Mem.HasStr.cons_iff.mp hstr
      have hpos := hesc.pos b
      have hle := hesc.length_le u
      rw [List.flatMap_cons, List.length_append, List.length_cons] at hbehind
      rw [List.flatMap_cons, List.length_append] at hroom
      rw [Nat.zero_add, escapeInPlace, hb, if_neg hb0, if_neg (by omega)]
      have hkeep : (m.store dest (escape b)).HasStr (inp + 1) u :=
        hrest.congr fun i hi => Mem.store_of_le m _ (by omega)
      rw [ih hkeep (by omega) (by omega) (by rw [List.length_cons] at hfuel; omega)]
      rfl

/-- A writer in front of what it reads finds no end. -/
lemma escapeInPlace_overrun (hesc : Escaping guardBand escape) (hlt : inp < dest)
    (hne : ∀ i, inp ≤ i → i < dest → m i ≠ 0) :
    (escapeInPlace guardBand escape fuel m inp dest left).2 = false := by
  induction fuel generalizing m inp dest left with
  | zero => rfl
  | succ fuel ih =>
      have hfirst := hne inp le_rfl hlt
      have hpos := hesc.pos (m inp)
      rw [escapeInPlace, if_neg hfirst]
      split_ifs
      · rfl
      refine ih (by omega) fun i hi hid => ?_
      rcases Nat.lt_or_ge i dest with hold | hnew
      · rw [Mem.store_of_lt m _ hold]
        exact hne i (by omega) hold
      · obtain ⟨j, rfl⟩ := Nat.exists_eq_add_of_le hnew
        have hj : j < (escape (m inp)).length := by omega
        rw [Mem.store_of_mem m _ hj]
        exact fun h0 => hesc.noZero _ hfirst (h0 ▸ List.getElem_mem hj)

/-- A writer that passes what it reads finds no end either. -/
lemma escapeInPlace_overtakes (hesc : Escaping guardBand escape) (hstr : m.HasStr inp u)
    (hle : dest ≤ inp) (hpass : inp + u.length < dest + (u.flatMap escape).length) :
    (escapeInPlace guardBand escape fuel m inp dest left).2 = false := by
  induction u generalizing fuel m inp dest left with
  | nil =>
      rw [List.flatMap_nil, List.length_nil] at hpass
      omega
  | cons b u ih =>
      cases fuel with
      | zero => rfl
      | succ fuel =>
          obtain ⟨hb, hb0, hrest⟩ := Mem.HasStr.cons_iff.mp hstr
          rw [List.flatMap_cons, List.length_append, List.length_cons] at hpass
          rw [escapeInPlace, hb, if_neg hb0]
          split_ifs
          · rfl
          by_cases hover : dest + (escape b).length ≤ inp + 1
          · exact ih (hrest.congr fun i hi => Mem.store_of_le m _ (by omega)) hover (by omega)
          · refine escapeInPlace_overrun hesc (by omega) fun i hi hid => ?_
            obtain ⟨j, rfl⟩ := Nat.exists_eq_add_of_le (show dest ≤ i by omega)
            have hj : j < (escape b).length := by omega
            rw [Mem.store_of_mem m _ hj]
            exact fun h0 => hesc.noZero b hb0 (h0 ▸ List.getElem_mem hj)

end

/-! ### The writers -/

section

variable {guardBand : ℕ} {escape : UInt8 → Bytes} {u bs msg : Bytes} {inp : ℕ} {c c' : Conn}

lemma reqWriteEscapeText_wrote (hesc : Escaping guardBand escape)
    (hstr : c.req.buffer.HasStr inp u)
    (hbehind : c.req.bufferEnd + (u.flatMap escape).length ≤ inp + u.length)
    (hroom : inp + u.length + guardBand ≤ bufferSize + 1) :
    Wrote (u.flatMap escape) c (reqWriteEscapeText guardBand escape (.inBuffer inp) c) := by
  have hle := hesc.length_le u
  have hpos : 0 < guardBand := (hesc.pos 0).trans_le (hesc.le 0)
  have hexact := escapeInPlace_exact hesc hstr hbehind
    (show _ ≤ bufferSize - c.req.bufferEnd + 1 by omega)
    (show u.length < bufferSize - c.req.bufferEnd + 1 by omega)
  rw [reqWriteEscapeText, hexact]
  dsimp only
  rw [if_pos (Or.inl rfl)]
  exact append_wrote _ c

lemma reqWriteEscapeText_gaveUp (hlive : c.req.status.code ≤ ReqStatus.done.code)
    (hno : ∀ fuel left, (escapeInPlace guardBand escape fuel c.req.buffer inp c.req.bufferEnd
      left).2 = false) :
    GaveUp c (reqWriteEscapeText guardBand escape (.inBuffer inp) c) := by
  have hstatus : c.req.status ≠ .dead := by
    intro hdead
    rw [hdead] at hlive
    exact absurd hlive (by decide)
  rw [reqWriteEscapeText, if_neg]
  · exact (append_wrote _ c).gaveUp (die_gaveUp _)
  · rw [hno]
    exact not_or.mpr ⟨by simp, hstatus⟩

/-- One more text for a request that may have been given up. -/
lemma reqWrite_or (h : Wrote bs c c' ∨ GaveUp c c')
    (hlive : c.req.status.code ≤ ReqStatus.done.code) (msg : Bytes) :
    Wrote (bs ++ msg) c (reqWrite msg c') ∨ GaveUp c (reqWrite msg c') := by
  rcases h with h | h
  · exact (reqWrite_cases (by rwa [h.status]) msg).imp h.trans h.gaveUp
  · exact Or.inr (h.reqWrite msg)

end

/-! ### The page -/

/-- The head of the page up to its location. -/
def movedHead (cfg : Config) (env : Env) (r : Request) : Bytes :=
  statusText cfg env " 302 Moved Temporarily\r\n"
      { r with keepalive := .stopped, responseStatus := 302 }
    ++ (str "Content-Type: " ++ htmlType ++ crlf) ++ str "Location: "

/-- The body of the page up to its anchor. -/
def movedAnchor : String :=
  "<HTML><HEAD><TITLE>302 Moved Temporarily</TITLE></HEAD>\n" ++
    "<BODY>\n<H1>302 Moved</H1>The document has moved\n<A HREF=\""

/-- The body of the page behind its anchor. -/
def movedEnd : Bytes := str "\">here</A>.\n</BODY></HTML>\n"

/-- The page up to its anchor, with what follows the location in the head. -/
def movedFront (cfg : Config) (env : Env) (r : Request) (u more : Bytes) : Bytes :=
  movedHead cfg env r ++ u.flatMap escapeHttp ++ crlf ++ more ++ str "\r\n\r\n" ++ str movedAnchor

/-- The page. -/
def movedPage (cfg : Config) (env : Env) (r : Request) (u more : Bytes) : Bytes :=
  movedFront cfg env r u more ++ u.flatMap escapeHtml ++ movedEnd

/-- Where the URL of a script lies. -/
def urlOff : ℕ := bufferSize / 2 + 10

/-- The state before `send_r_moved_temp`: the URL `u` lies in the buffer, and `more` is read
behind it. -/
structure MovedFrom (u more : Bytes) (moreHdr : Request → Bytes) (c : Conn) : Prop where
  method : c.req.method ≠ .head
  version : c.req.httpVersion ≠ .http09
  live : c.req.status.code ≤ ReqStatus.done.code
  empty : c.req.bufferEnd = 0
  url : c.req.buffer.HasStr urlOff u
  inside : urlOff + u.length + 2 ≤ bufferSize
  more : ∀ r : Request, (∀ i, urlOff + u.length < i → r.buffer i = c.req.buffer i) →
    r.headerEnd = c.req.headerEnd → moreHdr r = more
  noZero : ∀ r, 0 ∉ moreHdr r

/-- The request when its head begins. -/
def Conn.moving (c : Conn) : Conn := c.squashKa.setResponse 302

section

variable {cfg : Config} {env : Env} {u more : Bytes} {moreHdr : Request → Bytes} {c : Conn}

lemma length_movedHead_le (cfg : Config) (hdate : (env.rfc822 0).length = 29) (r : Request) :
    (movedHead cfg env r).length ≤ 300 := by
  have hlen := length_statusText_le cfg hdate " 302 Moved Temporarily\r\n"
    { r with keepalive := .stopped, responseStatus := 302 }
  have h₁ : (str " 302 Moved Temporarily\r\n").length = 24 := by decide
  have h₂ : (str "Content-Type: " ++ htmlType ++ crlf).length = 45 := by decide
  have h₃ : (str "Location: ").length = 10 := by decide
  rw [movedHead, List.length_append, List.length_append]
  omega

lemma le_length_movedHead (cfg : Config) (env : Env) (r : Request) :
    55 ≤ (movedHead cfg env r).length := by
  have h₂ : (str "Content-Type: " ++ htmlType ++ crlf).length = 45 := by decide
  have h₃ : (str "Location: ").length = 10 := by decide
  rw [movedHead, List.length_append, List.length_append]
  omega

/-- The head of the page up to its location, as it is written. -/
def Conn.movedTop (cfg : Config) (env : Env) (c : Conn) : Conn :=
  c.moving |> statusLine cfg env " 302 Moved Temporarily\r\n"
    |> reqWrite (str "Content-Type: " ++ htmlType ++ crlf) |> reqWrite (str "Location: ")

/-- The location is written, with the line end behind it. -/
def Conn.movedTo (c : Conn) : Conn :=
  c |> reqWriteEscapeText 3 escapeHttp (.inBuffer urlOff) |> reqWrite crlf

/-- The rest of the page up to the anchor. -/
def Conn.movedOn (moreHdr : Request → Bytes) (c : Conn) : Conn :=
  c |> reqWrite (moreHdr c.req) |> reqWrite (str "\r\n\r\n") |> reqWrite (str movedAnchor)

/-- The anchor and the end of the page. -/
def Conn.movedClose (c : Conn) : Conn :=
  c |> reqWriteEscapeText 6 escapeHtml (.inBuffer urlOff) |> reqWrite movedEnd

lemma sendRPage_eq {code : ℕ} {line : String} {fields body : Conn → Conn}
    (hver : c.req.httpVersion ≠ .http09)
    (hmethod :
      (fields (statusLine cfg env line (c.squashKa.setResponse code))).req.method ≠ .head) :
    sendRPage cfg env code line fields body c
      = (reqFlush (body (fields (statusLine cfg env line (c.squashKa.setResponse code))))).2 := by
  have hver' : (c.squashKa.setResponse code).req.httpVersion ≠ .http09 := hver
  rw [sendRPage, if_neg hver', if_neg hmethod]

lemma sendRMovedTemp_eq (h : MovedFrom u more moreHdr c) :
    sendRMovedTemp cfg env (.inBuffer urlOff) moreHdr c
      = (reqFlush ((c.movedTop cfg env).movedTo.movedOn moreHdr).movedClose).2 := by
  rw [sendRMovedTemp, sendRPage_eq h.version]
  · rw [Conn.movedClose, Conn.movedOn, Conn.movedTo, Conn.movedTop, Conn.moving, movedEnd,
      movedBody, reqWriteEscapeHtml, movedFields, reqWriteEscapeHttp]
    rfl
  · rw [(reqWrite_outputs _ _).method, (reqWrite_outputs _ _).method, (reqWrite_outputs _ _).method,
      movedFields, reqWriteEscapeHttp,
      (reqWriteEscapeText_outputs escaping_escapeHttp.le _ _).method,
      (reqWrite_outputs _ _).method, (reqWrite_outputs _ _).method,
      (statusLine_outputs _ _ _ _).method]
    exact h.method

/-- The head of the page up to its location. -/
lemma movedTop_wrote (cfg : Config) (h : MovedFrom u more moreHdr c)
    (hdate : (env.rfc822 0).length = 29) :
    Wrote (movedHead cfg env c.req) c.moving (c.movedTop cfg env) := by
  have hlen := length_movedHead_le cfg hdate c.req
  have hend := h.empty
  have hroom : HasRoom (movedHead cfg env c.req).length c.moving := by
    refine ⟨h.live, ?_⟩
    change c.req.bufferEnd + _ ≤ bufferSize
    rw [bufferSize]
    omega
  have hhead : movedHead cfg env c.req
      = statusText cfg env " 302 Moved Temporarily\r\n" c.moving.req
      ++ (str "Content-Type: " ++ htmlType ++ crlf) ++ str "Location: " := rfl
  rw [hhead] at hroom ⊢
  have h₁ := (Wrote.refl c.moving).statusLine cfg env hroom
    " 302 Moved Temporarily\r\n" (by
      rw [List.nil_append, List.length_append, List.length_append, Nat.add_assoc]
      exact Nat.le_add_right _ _)
  have h₂ := h₁.reqWrite hroom (str "Content-Type: " ++ htmlType ++ crlf) (by
    rw [List.nil_append]
    exact (List.prefix_append _ _).length_le)
  exact h₂.reqWrite hroom (str "Location: ") le_rfl

/-- What is written up to the anchor, and what escaping adds to the URL there, ends in front
of the URL. -/
def StaysBehind (cfg : Config) (env : Env) (r : Request) (u more : Bytes) : Prop :=
  (movedFront cfg env r u more).length + (u.flatMap escapeHtml).length ≤ urlOff + u.length

lemma length_movedFront (cfg : Config) (env : Env) (r : Request) (u more : Bytes) :
    (movedFront cfg env r u more).length = (movedHead cfg env r).length
      + (u.flatMap escapeHttp).length + 2 + more.length + 4 + (str movedAnchor).length := by
  have h₁ : crlf.length = 2 := by decide
  have h₂ : (str "\r\n\r\n").length = 4 := by decide
  rw [movedFront]
  simp only [List.length_append]
  rw [h₁, h₂]

/-- A page that stays behind its URL is written. -/
lemma movedPage_wrote (h : MovedFrom u more moreHdr c) (hdate : (env.rfc822 0).length = 29)
    (hbehind : StaysBehind cfg env c.req u more) :
    Wrote (movedPage cfg env c.req u more) c.moving
      ((c.movedTop cfg env).movedTo.movedOn moreHdr).movedClose := by
  have hhead := le_length_movedHead cfg env c.req
  have hfront := length_movedFront cfg env c.req u more
  have hhttp := escaping_escapeHttp.length_le u
  have hhtml := escaping_escapeHtml.length_le u
  have hcrlf : crlf.length = 2 := by decide
  have hempty : c.moving.req.bufferEnd = 0 := h.empty
  have hurl : c.moving.req.buffer.HasStr urlOff u := h.url
  have hoff : urlOff = 2058 := rfl
  have hsize : bufferSize = 4096 := rfl
  have hinside := h.inside
  rw [StaysBehind] at hbehind
  have hpage : (movedPage cfg env c.req u more).length
      = (movedFront cfg env c.req u more).length + (u.flatMap escapeHtml).length + 27 := by
    have hlast : movedEnd.length = 27 := by decide
    rw [movedPage, List.length_append, List.length_append, hlast]
  have hroom : HasRoom (movedPage cfg env c.req u more).length c.moving :=
    ⟨h.live, by omega⟩
  have h₁ := movedTop_wrote cfg h hdate
  have h₂ := h₁.trans (reqWriteEscapeText_wrote escaping_escapeHttp (h₁.hasStr hurl (by omega))
    (by rw [h₁.bufferEnd]; omega) (by omega))
  have h₃ := h₂.reqWrite hroom crlf (by
    simp only [List.length_append]
    omega)
  have hmore : moreHdr (c.movedTop cfg env).movedTo.req = more := by
    refine h.more _ (fun i hi => ?_) ?_
    · exact h₃.buffer (by simp only [List.length_append]; omega)
    · rw [Conn.movedTo, h₃.req]
      rfl
  have hfour : (str "\r\n\r\n").length = 4 := by decide
  have h₄ := h₃.reqWrite hroom more (by
    simp only [List.length_append]
    omega)
  have h₅ := h₄.reqWrite hroom (str "\r\n\r\n") (by
    simp only [List.length_append]
    omega)
  have h₆ := h₅.reqWrite hroom (str movedAnchor) (by
    simp only [List.length_append]
    omega)
  rw [Conn.movedOn, hmore]
  have h₇ := h₆.trans (reqWriteEscapeText_wrote escaping_escapeHtml
    (h₆.hasStr hurl (by simp only [List.length_append]; omega))
    (by rw [h₆.bufferEnd]; simp only [List.length_append]; omega) (by omega))
  exact h₇.reqWrite hroom movedEnd le_rfl

/-- The bytes of a text without zeros in the buffer. -/
lemma Wrote.ne_zero {d d' : Conn} (front : Bytes) {text : Bytes} (h : Wrote (front ++ text) d d')
    (hempty : d.req.bufferEnd = 0) (htext : 0 ∉ text) {i : ℕ} (hle : front.length ≤ i)
    (hlt : i < (front ++ text).length) : d'.req.buffer i ≠ 0 := by
  obtain ⟨j, rfl⟩ := Nat.exists_eq_add_of_le hle
  rw [List.length_append] at hlt
  rw [h.req, hempty]
  have hmem := @Mem.store_of_mem d.req.buffer 0 (front.length + j) (front ++ text)
    (by rw [List.length_append]; exact hlt)
  rw [Nat.zero_add, List.getElem_append_right (Nat.le_add_right _ _)] at hmem
  simp only
  rw [hmem]
  exact fun h0 => htext (h0 ▸ List.getElem_mem _)

lemma Escaping.noZero_flatMap {guardBand : ℕ} {escape : UInt8 → Bytes}
    (hesc : Escaping guardBand escape) (hu : 0 ∉ u) : 0 ∉ u.flatMap escape := by
  intro hmem
  obtain ⟨b, hb, hb0⟩ := List.mem_flatMap.mp hmem
  exact hesc.noZero b (fun h => hu (h ▸ hb)) hb0

/-- A page that does not stay behind its URL is given up. -/
lemma movedPage_gaveUp (h : MovedFrom u more moreHdr c) (hdate : (env.rfc822 0).length = 29)
    (hno : ¬StaysBehind cfg env c.req u more) :
    GaveUp c.moving ((c.movedTop cfg env).movedTo.movedOn moreHdr).movedClose := by
  have hhead := length_movedHead_le cfg hdate c.req
  have hfront := length_movedFront cfg env c.req u more
  have hempty : c.moving.req.bufferEnd = 0 := h.empty
  have hurl : c.moving.req.buffer.HasStr urlOff u := h.url
  have hlive : c.moving.req.status.code ≤ ReqStatus.done.code := h.live
  have hoff : urlOff = 2058 := rfl
  have hsize : bufferSize = 4096 := rfl
  have hinside := h.inside
  have hcrlf : crlf.length = 2 := by decide
  rw [StaysBehind] at hno
  have hclose {d : Conn} (hd : GaveUp c.moving d) : GaveUp c.moving d.movedClose :=
    (hd.reqWriteEscapeText _ _ _).reqWrite _
  have hon {d : Conn} (hd : GaveUp c.moving d) : GaveUp c.moving (d.movedOn moreHdr).movedClose :=
    hclose (((hd.reqWrite _).reqWrite _).reqWrite _)
  have h₁ := movedTop_wrote cfg h hdate
  by_cases hover : urlOff + u.length < (movedHead cfg env c.req).length
      + (u.flatMap escapeHttp).length
  · -- the location overtakes the URL
    refine hon (GaveUp.reqWrite (h₁.gaveUp (reqWriteEscapeText_gaveUp ?_ fun fuel left => ?_)) _)
    · rw [h₁.status]
      exact hlive
    · refine escapeInPlace_overtakes escaping_escapeHttp (h₁.hasStr hurl (by omega)) ?_ ?_
      all_goals
        rw [h₁.bufferEnd]
        omega
  have h₂ := h₁.trans (reqWriteEscapeText_wrote escaping_escapeHttp (h₁.hasStr hurl (by omega))
    (by rw [h₁.bufferEnd]; omega) (by omega))
  rcases reqWrite_or (Or.inl h₂) hlive crlf with h₃ | hgone
  swap
  · exact hon hgone
  generalize hd : (c.movedTop cfg env).movedTo = d
  have h₃' : Wrote (movedHead cfg env c.req ++ u.flatMap escapeHttp ++ crlf) c.moving d := by
    rw [← hd]
    exact h₃
  have hzero := h.noZero d.req
  have hor := reqWrite_or (reqWrite_or (reqWrite_or (Or.inl h₃') hlive (moreHdr d.req)) hlive
    (str "\r\n\r\n")) hlive (str movedAnchor)
  rcases hor with h₄ | hgone
  swap
  · exact hclose hgone
  refine GaveUp.reqWrite (h₄.gaveUp (reqWriteEscapeText_gaveUp ?_ fun fuel left => ?_)) _
  · rw [h₄.status]
    exact hlive
  by_cases hpast : urlOff < (movedHead cfg env c.req ++ u.flatMap escapeHttp ++ crlf
      ++ moreHdr d.req ++ str "\r\n\r\n" ++ str movedAnchor).length
  · -- the anchor begins behind the URL, which has been overwritten
    refine escapeInPlace_overrun escaping_escapeHtml ?_ fun i hi hid => ?_
    · rw [h₄.bufferEnd, hempty, Nat.zero_add]
      exact hpast
    · rw [h₄.bufferEnd, hempty, Nat.zero_add] at hid
      have htext : 0 ∉ u.flatMap escapeHttp ++ crlf ++ moreHdr d.req ++ str "\r\n\r\n"
          ++ str movedAnchor := by
        have hanchor : 0 ∉ str movedAnchor := by decide +kernel
        have hfour : 0 ∉ str "\r\n\r\n" := by decide
        have htwo : 0 ∉ crlf := by decide
        have hhttp := escaping_escapeHttp.noZero_flatMap hurl.1
        simp only [List.mem_append, not_or]
        exact ⟨⟨⟨⟨hhttp, htwo⟩, hzero⟩, hfour⟩, hanchor⟩
      simp only [List.append_assoc] at h₄ hid htext
      exact Wrote.ne_zero _ h₄ hempty htext (by omega) hid
  · have hlen := Nat.le_of_not_lt hpast
    simp only [List.length_append] at hlen
    have hmore : moreHdr d.req = more := by
      refine h.more _ (fun i hi => ?_) ?_
      · exact h₃'.buffer (by simp only [List.length_append]; omega)
      · rw [h₃'.req]
        rfl
    have hall : (movedHead cfg env c.req ++ u.flatMap escapeHttp ++ crlf ++ moreHdr d.req
        ++ str "\r\n\r\n" ++ str movedAnchor).length
        = (movedFront cfg env c.req u more).length := by
      rw [hmore, movedFront]
    rw [hall] at hpast
    have hend := h₄.bufferEnd
    rw [hall, hempty, Nat.zero_add] at hend
    have hle := Nat.le_of_not_lt hpast
    refine escapeInPlace_overtakes escaping_escapeHtml (h₄.hasStr hurl ?_) ?_ ?_
    · rw [hall, hempty, Nat.zero_add]
      exact hle
    · exact hend.trans_le hle
    · exact (Nat.lt_of_not_le hno).trans_eq (by rw [← hend])

/-- **The page with its URL in the buffer** is said as it stands exactly when its front stays
behind the URL; otherwise the request is given up. -/
lemma sendRMovedTemp_said (h : MovedFrom u more moreHdr c) (hdate : (env.rfc822 0).length = 29)
    (hbehind : StaysBehind cfg env c.req u more) :
    Said (movedPage cfg env c.req u more) c
      (sendRMovedTemp cfg env (.inBuffer urlOff) moreHdr c) := by
  have hsaid := (movedPage_wrote h hdate hbehind).said h.live
  rw [sendRMovedTemp_eq h]
  exact ⟨hsaid.text, hsaid.kept⟩

lemma sendRMovedTemp_gaveUp (h : MovedFrom u more moreHdr c) (hdate : (env.rfc822 0).length = 29)
    (hno : ¬StaysBehind cfg env c.req u more) :
    GaveUp c (sendRMovedTemp cfg env (.inBuffer urlOff) moreHdr c) := by
  have hgone := (movedPage_gaveUp h hdate hno).reqFlush
  rw [sendRMovedTemp_eq h]
  exact ⟨hgone.dead, hgone.events⟩

end

end Yabwf
