import Mathlib.Data.List.DropRight
import Yabwf.Lib.Lines
import Yabwf.Lib.Span
import Yabwf.Lib.CString
import Yabwf.Util

/-!
The lines of the configuration file, as `parse` and `apply_command` read them in their buffer.

* `parseLine`, `Command.apply`, `parse`: the functions on the buffer, with the largest index that
  is scanned or written.
* `lineDirective`: what a line says on its own.
* `SoundLine`: a line that is skipped, or one with white space behind its keyword, and behind its
  first argument where there is to be another one.
* `parseLine_exact_iff`: what is derived from a line is what it says, and no other byte of the
  buffer is looked at, exactly when the line is sound.
* `parse_exact_iff`: so it is for the lines of a file.
-/

namespace Yabwf

open Memory Lines

/-! ### The commands -/

/-- The number of arguments of a command. -/
inductive StmtType
  | noArgs
  | oneArg
  | twoArgs
  deriving DecidableEq

/-- An entry of `clist`; what its action does is no part of reading a line. -/
structure Command where
  name : Bytes
  type : StmtType
  deriving DecidableEq

/-- The compile time options that add commands. -/
structure CommandOptions where
  /-- `USE_SETRLIMIT` is defined. -/
  setrlimit : Bool := false
  /-- `CGI_STRIP_PREFIX` is defined. -/
  cgiStripPrefix : Bool := false

/-- `clist`. -/
def clist (opts : CommandOptions) : List Command :=
  let s0a (name : String) : Command := ⟨str name, .noArgs⟩
  let s1a (name : String) : Command := ⟨str name, .oneArg⟩
  let s2a (name : String) : Command := ⟨str name, .twoArgs⟩
  [s1a "Port", s1a "Listen", s1a "BackLog", s1a "User", s1a "Group", s1a "ServerAdmin",
    s1a "ServerRoot", s0a "UseLocaltime", s1a "ErrorLog", s1a "AccessLog", s1a "CgiLog",
    s1a "CGILog", s0a "VerboseCGILogs", s1a "ServerName", s0a "VirtualHost", s1a "VHostRoot",
    s1a "DefaultVHost", s1a "DocumentRoot", s1a "UserDir", s1a "DirectoryIndex",
    s1a "DirectoryMaker", s1a "DirectoryCache", s1a "PidFile", s1a "KeepAliveMax",
    s1a "KeepAliveTimeout", s1a "MimeTypes", s1a "DefaultType", s1a "DefaultCharset",
    s2a "AddType", s2a "ScriptAlias", s2a "Redirect", s2a "Alias", s1a "SinglePostLimit",
    s1a "CGIPath", s1a "CGILdLibraryPath", s1a "CGIumask", s1a "MaxConnections",
    s0a "ConcealServerIdentity", s1a "Allow", s1a "Deny"]
    ++ (if opts.setrlimit then [s2a "CGIRlimitCpu", s2a "CGIRlimitData", s2a "CGINice"] else [])
    ++ [s2a "CGIEnv"]
    ++ (if opts.cgiStripPrefix then [s0a "CGIStripPrefix", s1a "CGIStripToken"] else [])

/-- `lookup_keyword`. -/
def lookupKeyword (opts : CommandOptions) (c : Bytes) : Option Command :=
  (clist opts).find? fun p => strlower c == strlower p.name

/-- What a line makes the server do. -/
inductive Derived
  | ignored
  /-- `exit`, as there is no such keyword. -/
  | unknown (keyword : Bytes)
  /-- `exit`, as there are arguments missing. -/
  | missing (p : Command)
  | action (p : Command) (v1 v2 : Option Bytes)
  /-- A scan that does not end in the buffer, or one that begins at `NULL`. -/
  | undefined
  deriving DecidableEq

/-! ### `parse` -/

/-- The size of `buf`. -/
def lineBufferSize : ℕ := 1025

/-- The string at an index of `buf`. -/
def lineString (m : Mem) (i : ℕ) : Bytes := m.cstr i (lineBufferSize - i)

/-- The first white space from an index on. -/
def scanSpace (m : Mem) (i : ℕ) : Option ℕ := Mem.scan isSpace m i lineBufferSize

/-- The first byte other than white space from an index on. -/
def skipSpace (m : Mem) (i : ℕ) : Option ℕ := Mem.scan (!isSpace ·) m i lineBufferSize

/-- The loop of `trim` from an index on downwards. -/
def trimLoop (m : Mem) : ℕ → Mem
  | 0 => m
  | c + 1 => if isSpace (m (c + 1)) then trimLoop (m.store (c + 1) [0]) c else m

/-- `trim`. -/
def trim (m : Mem) : Mem := trimLoop m ((lineString m 0).length - 1)

/-- What has been derived from a line, with the buffer behind it, and the largest index that has
been scanned or written. -/
structure Parsed where
  derived : Derived
  buf : Mem
  reach : ℕ

/-- `apply_command`, where `args` may be `NULL`. -/
def Command.apply (p : Command) (m : Mem) (args : Option ℕ) (reach : ℕ) : Parsed :=
  let undefined : Parsed := ⟨.undefined, m, lineBufferSize⟩
  match p.type with
  | .noArgs => ⟨.action p none none, m, reach⟩
  | .oneArg => ⟨.action p (args.map (lineString m)) none, m, reach⟩
  | .twoArgs =>
      match args.bind (skipSpace m) with
      | none => undefined
      | some args =>
          if m args = 0 then ⟨.missing p, m, max reach args⟩
          else
            match scanSpace m args with
            | none => undefined
            | some second =>
                if m second = 0 then
                  ⟨.action p (some (lineString m args)) none, m, max reach second⟩
                else
                  let m := m.store second [0]
                  match skipSpace m (second + 1) with
                  | none => undefined
                  | some i =>
                      let v2 := if m i = 0 then none else some (lineString m i)
                      ⟨.action p (some (lineString m args)) v2, m, max reach i⟩

/-- The round of `parse` behind `trim`. -/
def parseTrimmed (opts : CommandOptions) (m : Mem) (reach : ℕ) : Parsed :=
  match scanSpace m 0 with
  | none => ⟨.undefined, m, lineBufferSize⟩
  | some c =>
      -- `c` is at white space, so that it never becomes `NULL`
      let cut : Mem × Option ℕ := if m c = 0 then (m, none) else (m.store c [0], some (c + 1))
      match lookupKeyword opts (lineString cut.1 0) with
      | none => ⟨.unknown (lineString cut.1 0), cut.1, max reach c⟩
      | some p => p.apply cut.1 cut.2 (max reach c)

/-- One round of `parse`, for the line that `fgets` has read. -/
def parseLine (opts : CommandOptions) (m : Mem) : Parsed :=
  if m 0 = 0 ∨ m 0 = 35 ∨ m 0 = 10 then ⟨.ignored, m, 0⟩
  else if trim m 0 = 0 then ⟨.ignored, trim m, (lineString m 0).length⟩
  else parseTrimmed opts (trim m) (lineString m 0).length

section

variable (opts : CommandOptions) (exits : Command → Option Bytes → Option Bytes → Bool)

/-- Whether `parse` does not go on; `exits` says which actions end the program. -/
def Derived.stops : Derived → Bool
  | .ignored => false
  | .action p v1 v2 => exits p v1 v2
  | _ => true

/-- The loop of `parse` over what `fgets` reads. -/
def parseLines : Mem → List Bytes → List Parsed
  | _, [] => []
  | m, line :: rest =>
      let p := parseLine opts (m.store 0 (line ++ [0]))
      p :: if p.derived.stops exits then [] else parseLines p.buf rest

/-- `parse`, with the buffer as it is found on the stack. -/
def parse (m : Mem) (file : Bytes) : List Parsed :=
  parseLines opts exits m (pieces 10 (lineBufferSize - 2) [] file)

end

/-! ### What a line says -/

/-- The string that a line is. -/
def lineText (line : Bytes) : Bytes := line.takeWhile (· != 0)

/-- The text without the white space at its end. -/
def trimmed (t : Bytes) : Bytes := t.rdropWhile isSpace

/-- The first word of a text. -/
def firstWord (t : Bytes) : Bytes := t.takeWhile (!isSpace ·)

/-- What follows the first word, and the white space that ends it; nothing if it is not ended. -/
def afterWord (t : Bytes) : Option Bytes :=
  match t.dropWhile (!isSpace ·) with
  | [] => none
  | _ :: rest => some rest

/-- The action of a command for its arguments: one that takes two splits them at white space, and
needs the first. -/
def Command.derived (p : Command) (args : Option Bytes) : Derived :=
  match p.type with
  | .noArgs => .action p none none
  | .oneArg => .action p args none
  | .twoArgs =>
      match args.map (·.dropWhile isSpace) with
      | none | some [] => .missing p
      | some args =>
          let second := (args.dropWhile (!isSpace ·)).dropWhile isSpace
          .action p (some (firstWord args)) (if second = [] then none else some second)

/-- What the keyword of a text and its arguments say. -/
def wordsDirective (opts : CommandOptions) (t : Bytes) : Derived :=
  match lookupKeyword opts (firstWord t) with
  | none => .unknown (firstWord t)
  | some p => p.derived (afterWord t)

/-- What a text says: empty ones, comments and white space say nothing. -/
def textDirective (opts : CommandOptions) (t : Bytes) : Derived :=
  if t.head? = some 35 ∨ t.head? = some 10 ∨ trimmed t = [] then .ignored
  else wordsDirective opts (trimmed t)

/-- What a line says. -/
def lineDirective (opts : CommandOptions) (line : Bytes) : Derived :=
  textDirective opts (lineText line)

/-- What is derived from a line, with the buffer `m` behind an earlier one, is what the line says,
and every index that is scanned or written lies within the line and its terminator. -/
def LineExact (opts : CommandOptions) (m : Mem) (line : Bytes) : Prop :=
  let p := parseLine opts (m.store 0 (line ++ [0]))
  p.derived = lineDirective opts line ∧ p.reach ≤ (lineText line).length

/-- There is white space behind the keyword, and behind the first argument of a command that takes
two. -/
def SoundWords (opts : CommandOptions) (t : Bytes) : Prop :=
  ∃ args, afterWord t = some args ∧ ∀ p, lookupKeyword opts (firstWord t) = some p →
    p.type = .twoArgs → afterWord (args.dropWhile isSpace) ≠ none

/-- A line that the scans stop in: one that is skipped at its first byte, or one with white space
behind its words. -/
def SoundLine (opts : CommandOptions) (line : Bytes) : Prop :=
  lineText line = [] ∨ (lineText line).head? = some 35 ∨ (lineText line).head? = some 10 ∨
    SoundWords opts (trimmed (lineText line))

/-! ### The scans -/

section

variable {m : Mem} {off : ℕ}

/-- White space ends at the latest with the string. -/
lemma skipSpace_eq {a b : Bytes} (hstr : m.HasStr off (a ++ b)) (ha : ∀ x ∈ a, isSpace x = true)
    (hb : ∀ x ∈ b.head?, isSpace x = false) (hn : off + a.length < lineBufferSize) :
    skipSpace m off = some (off + a.length) := by
  have hsp : ∀ x ∈ a, (!isSpace x) = false := fun x hx => by simp [ha x hx]
  cases b with
  | nil =>
      rw [List.append_nil] at hstr
      exact Mem.scan_end hstr hsp (by decide) hn
  | cons x b => exact Mem.scan_eq hstr hsp (by simp [hb x rfl]) hn

/-- A scan that finds no white space in the string goes on behind its end. -/
lemma lt_of_scanSpace {t : Bytes} {e j : ℕ} (hstr : m.HasStr off t)
    (ht : ∀ x ∈ t, isSpace x = false) (hzero : ∀ i, off + t.length ≤ i → i ≤ e → m i = 0)
    (hj : scanSpace m off = some j) : e < j := by
  obtain ⟨hspace, hmem, -⟩ := Mem.scan_eq_some_iff.mp hj
  by_contra hle
  rcases Nat.lt_or_ge j (off + t.length) with hlt | hge
  · obtain ⟨k, rfl⟩ := Nat.exists_eq_add_of_le hmem.1
    have hk : k < t.length := by omega
    rw [hstr.apply_of_lt hk, ht _ (List.getElem_mem hk)] at hspace
    cases hspace
  · rw [hzero j hge (not_lt.mp hle)] at hspace
    exact absurd hspace (by decide)

end

/-! ### The line without the white space at its end -/

lemma trimmed_cons (b : UInt8) (u : Bytes) :
    trimmed (b :: u) = if trimmed u = [] ∧ isSpace b = true then [] else b :: trimmed u := by
  have hnil : trimmed u = [] ↔ (u.reverse.dropWhile isSpace).isEmpty = true := by
    rw [trimmed, List.rdropWhile, List.reverse_eq_nil_iff, List.isEmpty_iff]
  have hcons : trimmed (b :: u) = ((u.reverse ++ [b]).dropWhile isSpace).reverse := by
    rw [trimmed, List.rdropWhile, List.reverse_cons]
  rw [hcons, List.dropWhile_append]
  by_cases h : (u.reverse.dropWhile isSpace).isEmpty = true
  · rw [if_pos h]
    by_cases hb : isSpace b = true
    · rw [if_pos ⟨hnil.mpr h, hb⟩, List.dropWhile_cons_of_pos hb]
      rfl
    · rw [if_neg fun h' => hb h'.2, List.dropWhile_cons_of_neg hb, hnil.mpr h]
      rfl
  · rw [if_neg h, if_neg fun h' => h (hnil.mp h'.1), List.reverse_append]
    rfl

lemma isSpace_getLast_trimmed {t : Bytes} (h : trimmed t ≠ []) :
    isSpace ((trimmed t).getLast h) = false :=
  Bool.eq_false_iff.mpr (List.rdropWhile_last_not isSpace t h)

lemma length_trimmed_le (t : Bytes) : (trimmed t).length ≤ t.length :=
  (List.rdropWhile_prefix isSpace t).length_le

/-- `trim` leaves the first byte, and zeros where it has been. -/
lemma trimLoop_hasStr {m : Mem} {b : UInt8} {u : Bytes} (hstr : m.HasStr 0 (b :: u)) :
    (trimLoop m u.length).HasStr 0 (b :: trimmed u) ∧
      (∀ i, (trimmed u).length < i → i ≤ u.length + 1 → trimLoop m u.length i = 0) ∧
      ∀ i, u.length < i → trimLoop m u.length i = m i := by
  induction hk : u.length generalizing m u with
  | zero =>
      obtain rfl := List.length_eq_zero_iff.mp hk
      refine ⟨hstr, fun i hi hle => ?_, fun _ _ => rfl⟩
      obtain rfl : i = 1 := by
        simp only [trimmed, List.rdropWhile_nil, List.length_nil] at hi
        omega
      exact hstr.2.2
  | succ k ih =>
      obtain ⟨v, x, rfl⟩ : ∃ v x, u = v ++ [x] :=
        ⟨_, _, (List.dropLast_append_getLast (List.ne_nil_of_length_eq_add_one hk)).symm⟩
      have hv : v.length = k := by simpa using hk
      have hx : m (k + 1) = x := by
        have := hstr.apply_of_lt (i := k + 1) (by simp [hv])
        simpa [hv] using this
      rw [trimLoop, hx]
      by_cases hspace : isSpace x = true
      · rw [if_pos hspace]
        have hcut := hstr.cut (k := k + 1) (by simp [hv])
        rw [Nat.zero_add, List.take_succ_cons, List.take_left' hv] at hcut
        obtain ⟨htext, hzero, hrest⟩ := ih hcut hv
        have htrim : trimmed (v ++ [x]) = trimmed v := List.rdropWhile_concat_pos _ _ _ hspace
        rw [htrim]
        have hout : ∀ i, k + 1 < i → trimLoop (m.store (k + 1) [0]) k i = m i := fun i hi => by
          rw [hrest i (by omega),
            Mem.store_of_le m [0] (by simp only [List.length_singleton]; omega)]
        refine ⟨htext, fun i hi hle => ?_, hout⟩
        rcases Nat.lt_or_ge (k + 1) i with hlt | hge
        · obtain rfl : i = k + 2 := by omega
          rw [hout _ hlt]
          have hend := hstr.2.2
          simpa [hv] using hend
        · exact hzero i hi hge
      · rw [if_neg hspace]
        have htrim : trimmed (v ++ [x]) = v ++ [x] := List.rdropWhile_concat_neg _ _ _ hspace
        rw [htrim]
        refine ⟨hstr, fun i hi hle => ?_, fun _ _ => rfl⟩
        rw [List.length_append, hv, List.length_singleton] at hi
        obtain rfl : i = k + 2 := by omega
        have hend := hstr.2.2
        simpa [hv] using hend

/-! ### Words -/

lemma afterWord_eq_none {t : Bytes} : afterWord t = none ↔ ∀ x ∈ t, isSpace x = false := by
  rw [afterWord]
  cases h : t.dropWhile (!isSpace ·) with
  | nil =>
      rw [List.dropWhile_eq_nil_iff] at h
      exact iff_of_true rfl fun x hx => by simpa using h x hx
  | cons c rest =>
      refine iff_of_false (by simp) fun hall => ?_
      have hnil : t.dropWhile (!isSpace ·) = [] :=
        List.dropWhile_eq_nil_iff.mpr fun x hx => by simp [hall x hx]
      rw [hnil] at h
      cases h

/-- A word that ends. -/
lemma afterWord_eq_some {t rest : Bytes} (h : afterWord t = some rest) :
    ∃ c, isSpace c = true ∧ t = firstWord t ++ c :: rest ∧ t.dropWhile (!isSpace ·) = c :: rest ∧
      ∀ x ∈ firstWord t, isSpace x = false := by
  rw [afterWord] at h
  cases hdrop : t.dropWhile (!isSpace ·) with
  | nil =>
      rw [hdrop] at h
      cases h
  | cons c s =>
      rw [hdrop] at h
      obtain rfl := Option.some.inj h
      have hne : t.dropWhile (!isSpace ·) ≠ [] := by
        rw [hdrop]
        exact List.cons_ne_nil c s
      have hhead := List.head_dropWhile_not (!isSpace ·) hne
      refine ⟨c, ?_, ?_, rfl, fun x hx => ?_⟩
      · simpa [hdrop] using hhead
      · rw [firstWord, ← hdrop, List.takeWhile_append_dropWhile]
      · simpa using List.mem_takeWhile_imp hx

/-- White space, and what is behind it. -/
lemma exists_dropWhile_isSpace {t : Bytes} (hne : t ≠ [])
    (hlast : isSpace (t.getLast hne) = false) :
    ∃ sp x v, t = sp ++ x :: v ∧ (∀ y ∈ sp, isSpace y = true) ∧ isSpace x = false ∧
      t.dropWhile isSpace = x :: v := by
  cases hdrop : t.dropWhile isSpace with
  | nil =>
      rw [List.dropWhile_eq_nil_iff] at hdrop
      rw [hdrop _ (List.getLast_mem hne)] at hlast
      cases hlast
  | cons x v =>
      have hne' : t.dropWhile isSpace ≠ [] := by
        rw [hdrop]
        exact List.cons_ne_nil x v
      have hhead := List.head_dropWhile_not isSpace hne'
      refine ⟨t.takeWhile isSpace, x, v, ?_, fun y hy => List.mem_takeWhile_imp hy, ?_, rfl⟩
      · rw [← hdrop, List.takeWhile_append_dropWhile]
      · simpa [hdrop] using hhead

/-! ### One line -/

/-- A scan that begins behind another one ends behind it. -/
lemma le_of_skipSpace {m : Mem} {off j : ℕ} (h : skipSpace m off = some j) : off ≤ j :=
  (Mem.scan_eq_some_iff.mp h).2.1.1

lemma scanSpace_lt {m : Mem} {off j : ℕ} (h : scanSpace m off = some j) : j < lineBufferSize :=
  (Mem.scan_eq_some_iff.mp h).2.1.2

lemma ne_zero_of_isSpace {b : UInt8} (h : isSpace b = true) : b ≠ 0 := by
  rintro rfl
  exact absurd h (by decide)

section TwoArgs

variable {p : Command} {m : Mem} {off k reach e : ℕ} {x : UInt8} {v w : Bytes}

/-- A command for two with one argument only is looked at beyond the line: the end of the first
argument is taken for white space, and `c` is set behind it. -/
lemma Command.lt_reach_of_oneWord (hp : p.type = .twoArgs) (hskip : skipSpace m off = some k)
    (hv : m.HasStr k (x :: v)) (hword : ∀ y ∈ x :: v, isSpace y = false)
    (hzero : ∀ i, k + (v.length + 1) ≤ i → i ≤ e → m i = 0) (hsize : e < lineBufferSize) :
    e < (p.apply m (some off) reach).reach := by
  have hx0 : m k ≠ 0 := by
    obtain ⟨hat, hx0, -⟩ := Mem.HasStr.cons_iff.mp hv
    rwa [hat]
  simp only [Command.apply, hp, Option.bind_some, hskip, if_neg hx0]
  cases hscan : scanSpace m k with
  | none => exact hsize
  | some j =>
      have hj : e < j := lt_of_scanSpace hv hword hzero hscan
      dsimp only
      split_ifs with hj0
      · exact lt_max_of_lt_right hj
      · cases hskip' : skipSpace (m.store j [0]) (j + 1) with
        | none => exact hsize
        | some i =>
            have hi := le_of_skipSpace hskip'
            exact lt_max_of_lt_right (by omega)

/-- The second argument, behind the white space that ends the first one. -/
lemma exists_second_arg (hne : v ≠ []) (hlast : isSpace (v.getLast hne) = false) {first : Bytes}
    {c : UInt8} (hsplit : v = first ++ c :: w) (hc : isSpace c = true) :
    ∃ sp y second, w = sp ++ y :: second ∧ (∀ z ∈ sp, isSpace z = true) ∧ isSpace y = false ∧
      w.dropWhile isSpace = y :: second := by
  subst hsplit
  have hwne : w ≠ [] := by
    rintro rfl
    rw [List.getLast_append_singleton, hc] at hlast
    cases hlast
  refine exists_dropWhile_isSpace hwne ?_
  rw [← hlast]
  congr 1
  simp [List.getLast_cons hwne]

/-- A command for two with both arguments is split where they stand. -/
lemma Command.apply_twoWords (hp : p.type = .twoArgs) (hskip : skipSpace m off = some k)
    (hv : m.HasStr k (x :: v)) (hlast : isSpace ((x :: v).getLast (List.cons_ne_nil x v)) = false)
    (hafter : afterWord (x :: v) = some w) (hend : k + (v.length + 1) ≤ e)
    (hsize : e < lineBufferSize) (hreach : reach ≤ e) {args : Bytes}
    (hdrop : args.dropWhile isSpace = x :: v) :
    (p.apply m (some off) reach).derived = p.derived (some args) ∧
      (p.apply m (some off) reach).reach ≤ e := by
  obtain ⟨c, hc, hsplit, hdrop', hfirst⟩ := afterWord_eq_some hafter
  obtain ⟨sp, y, second, rfl, hsp, hy, hdropw⟩ :=
    exists_second_arg (List.cons_ne_nil x v) hlast hsplit hc
  set first := firstWord (x :: v)
  have hlen : v.length + 1 = first.length + (sp.length + (second.length + 1) + 1) := by
    have := congrArg List.length hsplit
    simpa using this
  have hlenw : (sp ++ y :: second).length = sp.length + (second.length + 1) := List.length_append
  have hx0 : m k ≠ 0 := by
    obtain ⟨hat, hx0, -⟩ := Mem.HasStr.cons_iff.mp hv
    rwa [hat]
  have hv' : m.HasStr k (first ++ c :: (sp ++ y :: second)) := hsplit ▸ hv
  have hscan : scanSpace m k = some (k + first.length) := Mem.scan_eq hv' hfirst hc (by omega)
  have hc0 : m (k + first.length) ≠ 0 := by
    rw [hv'.apply_of_lt (by simp)]
    simpa using ne_zero_of_isSpace hc
  -- the white space becomes the end of the first argument
  set m' := m.store (k + first.length) [0] with hm'
  have hw : m'.HasStr (k + first.length + 1) (sp ++ y :: second) := by
    have hw := hv'.drop (k := first.length + 1) (by simp)
    rw [← List.drop_drop, List.drop_left, List.drop_succ_cons, List.drop_zero,
      ← Nat.add_assoc] at hw
    refine hw.congr fun i hi => Mem.store_of_le _ _ ?_
    rw [List.length_singleton]
    omega
  have hfirststr : m'.HasStr k first := by
    have := hv'.cut (k := first.length) (by simp)
    rwa [List.take_left] at this
  have hskip' : skipSpace m' (k + first.length + 1) = some (k + first.length + 1 + sp.length) :=
    skipSpace_eq hw hsp (fun z hz => Option.some.inj hz ▸ hy) (by omega)
  have hsecond : m'.HasStr (k + first.length + 1 + sp.length) (y :: second) := by
    have := hw.drop (k := sp.length) (by omega)
    rwa [List.drop_left] at this
  have hy0 : m' (k + first.length + 1 + sp.length) ≠ 0 := by
    obtain ⟨hat, hy0, -⟩ := Mem.HasStr.cons_iff.mp hsecond
    rwa [hat]
  have hv1 : lineString m' k = first := hfirststr.cstr_eq (by omega)
  have hv2 : lineString m' (k + first.length + 1 + sp.length) = y :: second :=
    hsecond.cstr_eq (by rw [List.length_cons]; omega)
  have hspec : (c :: (sp ++ y :: second)).dropWhile isSpace = y :: second := by
    rw [List.dropWhile_cons_of_pos hc, hdropw]
  simp only [Command.apply, Command.derived, hp, Option.bind_some, hskip, if_neg hx0,
    Option.map_some, hdrop, hscan, if_neg hc0, ← hm', hskip', if_neg hy0, hv1, hv2, hdrop', hspec,
    List.cons_ne_nil, if_false]
  exact ⟨rfl, max_le hreach (by omega)⟩

end TwoArgs

/-- The command with the arguments `args`, which end with the line: those of a command for two
are split where they stand, if there is white space behind the first one. -/
lemma Command.apply_exact_iff (p : Command) {m : Mem} {off reach e : ℕ} {args : Bytes}
    (hstr : m.HasStr off args) (hne : args ≠ []) (hlast : isSpace (args.getLast hne) = false)
    (hzero : ∀ i, off + args.length ≤ i → i ≤ e → m i = 0) (hend : off + args.length ≤ e)
    (hsize : e < lineBufferSize) (hreach : reach ≤ e) :
    ((p.apply m (some off) reach).derived = p.derived (some args) ∧
      (p.apply m (some off) reach).reach ≤ e) ↔
      (p.type = .twoArgs → afterWord (args.dropWhile isSpace) ≠ none) := by
  have hargs : lineString m off = args := hstr.cstr_eq (by omega)
  cases hp : p.type with
  | noArgs =>
      simp only [Command.apply, Command.derived, hp]
      exact iff_of_true ⟨trivial, hreach⟩ fun h => by cases h
  | oneArg =>
      simp only [Command.apply, Command.derived, hp, Option.map_some, hargs]
      exact iff_of_true ⟨trivial, hreach⟩ fun h => by cases h
  | twoArgs =>
      obtain ⟨sp, x, v, rfl, hsp, hx, hdrop⟩ := exists_dropWhile_isSpace hne hlast
      have hlen : (sp ++ x :: v).length = sp.length + (v.length + 1) := List.length_append
      have hskip : skipSpace m off = some (off + sp.length) :=
        skipSpace_eq hstr hsp (fun y hy => Option.some.inj hy ▸ hx) (by omega)
      have hv : m.HasStr (off + sp.length) (x :: v) := by
        have := hstr.drop (k := sp.length) (by omega)
        rwa [List.drop_left] at this
      have hvlast : isSpace ((x :: v).getLast (List.cons_ne_nil x v)) = false := by
        rw [← hlast, List.getLast_append_of_ne_nil]
      rw [hdrop]
      cases hafter : afterWord (x :: v) with
      | none =>
          have hlt : e < (p.apply m (some off) reach).reach := Command.lt_reach_of_oneWord hp hskip
            hv (afterWord_eq_none.mp hafter) (fun i hi hle => hzero i (by omega) hle) hsize
          exact iff_of_false (fun h => absurd h.2 (not_le.mpr hlt)) fun h => h rfl rfl
      | some w =>
          exact iff_of_true (Command.apply_twoWords hp hskip hv hvlast hafter (by omega) hsize
            hreach hdrop) (by simp)

/-- The buffer holds the line that has been read into it. -/
lemma hasStr_lineText (m : Mem) (off : ℕ) (line : Bytes) :
    (m.store off (line ++ [0])).HasStr off (lineText line) := by
  have hnz : 0 ∉ lineText line := fun h => by simpa using List.mem_takeWhile_imp h
  have hsplit : line = lineText line ++ line.dropWhile (· != 0) :=
    List.takeWhile_append_dropWhile.symm
  obtain ⟨r, hr⟩ : ∃ r, line ++ [0] = lineText line ++ [0] ++ r := by
    cases hdrop : line.dropWhile (· != 0) with
    | nil =>
        rw [hdrop, List.append_nil] at hsplit
        exact ⟨[], by rw [← hsplit, List.append_nil]⟩
    | cons x s =>
        have hne : line.dropWhile (· != 0) ≠ [] := by
          rw [hdrop]
          exact List.cons_ne_nil x s
        have hhead := List.head_dropWhile_not (· != (0 : UInt8)) hne
        have hx : x = 0 := by simpa [hdrop] using hhead
        refine ⟨s ++ [0], ?_⟩
        conv_lhs => rw [hsplit, hdrop, hx]
        simp
  rw [hr, Mem.store_append]
  exact (Mem.HasStr.of_store hnz).store_of_gt (by simp) r

lemma length_lineText_le (line : Bytes) : (lineText line).length ≤ line.length :=
  (List.takeWhile_sublist _).length_le

lemma lookupKeyword_nil (opts : CommandOptions) : lookupKeyword opts [] = none := by
  obtain ⟨b, b'⟩ := opts
  cases b <;> cases b' <;> decide

/-- The arguments are looked at behind the keyword. -/
lemma Command.le_reach (p : Command) (m : Mem) (args : Option ℕ) {reach : ℕ}
    (h : reach ≤ lineBufferSize) : reach ≤ (p.apply m args reach).reach := by
  rw [Command.apply]
  cases p.type with
  | noArgs => exact le_rfl
  | oneArg => exact le_rfl
  | twoArgs =>
      simp only
      cases args.bind (skipSpace m) with
      | none => exact h
      | some i =>
          simp only
          split_ifs with hi
          · exact le_max_left _ _
          · cases scanSpace m i with
            | none => exact h
            | some j =>
                simp only
                split_ifs with hj
                · exact le_max_left _ _
                · cases skipSpace (m.store j [0]) (j + 1) with
                  | none => exact h
                  | some k => exact le_max_left _ _

/-- The words of a line that is not empty. -/
lemma parseTrimmed_exact_iff (opts : CommandOptions) {m : Mem} {e : ℕ} {t : Bytes}
    (hstr : m.HasStr 0 t) (hne : t ≠ []) (hlast : isSpace (t.getLast hne) = false)
    (hzero : ∀ i, t.length ≤ i → i ≤ e → m i = 0) (hend : t.length ≤ e)
    (hsize : e < lineBufferSize) :
    ((parseTrimmed opts m e).derived = wordsDirective opts t ∧
      (parseTrimmed opts m e).reach ≤ e) ↔ SoundWords opts t := by
  rw [parseTrimmed, wordsDirective, SoundWords]
  cases hafter : afterWord t with
  | none =>
      refine iff_of_false ?_ fun ⟨_, h, _⟩ => by cases h
      rintro ⟨-, hle⟩
      have hword := afterWord_eq_none.mp hafter
      cases hscan : scanSpace m 0 with
      | none =>
          simp only [hscan] at hle
          omega
      | some j =>
          have hj : e < j :=
            lt_of_scanSpace hstr hword (fun i hi hle => hzero i (by omega) hle) hscan
          have hmax : max e j ≤ lineBufferSize := max_le hsize.le (scanSpace_lt hscan).le
          simp only [hscan] at hle
          generalize (if m j = 0 then _ else _ : Mem × Option ℕ) = cut at hle
          cases hlookup : lookupKeyword opts (lineString cut.1 0) with
          | none =>
              simp only [hlookup] at hle
              have := le_of_max_le_right hle
              omega
          | some p =>
              simp only [hlookup] at hle
              have := (le_max_right e j).trans ((p.le_reach cut.1 cut.2 hmax).trans hle)
              omega
  | some args =>
      obtain ⟨c, hc, hsplit, -, hword⟩ := afterWord_eq_some hafter
      generalize firstWord t = keyword at hsplit hword ⊢
      subst hsplit
      have hlen : (keyword ++ c :: args).length = keyword.length + (args.length + 1) :=
        List.length_append
      have hscan : scanSpace m 0 = some keyword.length := by
        rw [scanSpace, Mem.scan_eq hstr hword hc (by omega), Nat.zero_add]
      have hc0 : m keyword.length ≠ 0 := by
        have := hstr.apply_of_lt (i := keyword.length) (by simp)
        rw [Nat.zero_add] at this
        rw [this]
        simpa using ne_zero_of_isSpace hc
      have hkeyword : (m.store keyword.length [0]).HasStr 0 keyword := by
        have := hstr.cut (k := keyword.length) (by simp)
        rwa [List.take_left, Nat.zero_add] at this
      have hargs : (m.store keyword.length [0]).HasStr (keyword.length + 1) args := by
        have := hstr.drop (k := keyword.length + 1) (by simp)
        rw [← List.drop_drop, List.drop_left, List.drop_succ_cons, List.drop_zero,
          Nat.zero_add] at this
        exact this.congr fun i hi => Mem.store_of_le _ _ (by simpa using hi)
      have hargsne : args ≠ [] := by
        rintro rfl
        have hl : (keyword ++ [c]).getLast hne = c := by simp
        rw [hl, hc] at hlast
        cases hlast
      have hargslast : isSpace (args.getLast hargsne) = false := by
        rw [← hlast]
        congr 1
        simp [List.getLast_cons hargsne]
      simp only [hscan, if_neg hc0, lineString]
      rw [hkeyword.cstr_eq (by omega)]
      cases hlookup : lookupKeyword opts keyword with
      | none => exact iff_of_true ⟨rfl, by simp; omega⟩ ⟨args, rfl, fun p hp => by cases hp⟩
      | some p =>
          simp only
          rw [p.apply_exact_iff hargs hargsne hargslast (e := e) (fun i hi hle => ?_) (by omega)
            hsize (by simp; omega)]
          · constructor
            · rintro h
              refine ⟨args, rfl, ?_⟩
              rintro q ⟨⟩
              exact h
            · rintro ⟨args', ⟨⟩, h⟩
              exact h p rfl
          · rw [Mem.store_of_le _ _ (by simp only [List.length_singleton]; omega)]
            exact hzero i (by omega) hle

/-- **A line means what it says**, whatever is behind it in the buffer, and no byte behind its
terminator is looked at, exactly when it is sound. -/
lemma parseLine_exact_iff (opts : CommandOptions) (m : Mem) {line : Bytes}
    (hline : line.length ≤ lineBufferSize - 2) : LineExact opts m line ↔ SoundLine opts line := by
  have hstr := hasStr_lineText m 0 line
  have hlen : (lineText line).length ≤ 1023 := (length_lineText_le line).trans hline
  have hsize : lineBufferSize = 1025 := rfl
  rw [LineExact, SoundLine, parseLine, lineDirective]
  generalize m.store 0 (line ++ [0]) = M at hstr ⊢
  generalize lineText line = t at hstr hlen ⊢
  cases t with
  | nil =>
      have h0 : M 0 = 0 := Mem.HasStr.nil_iff.mp hstr
      simp [h0, trimmed, textDirective]
  | cons b u =>
      obtain ⟨hb, hb0, -⟩ := Mem.HasStr.cons_iff.mp hstr
      rw [hb, textDirective]
      by_cases hskip : b = 35 ∨ b = 10
      · rcases hskip with rfl | rfl <;> simp
      rw [not_or] at hskip
      obtain ⟨htext, hzero, -⟩ := trimLoop_hasStr hstr
      have htrim : trim M = trimLoop M u.length := by
        rw [trim, lineString, hstr.cstr_eq (by omega)]
        rfl
      have hreach : (lineString M 0).length = u.length + 1 := by
        rw [lineString, hstr.cstr_eq (by omega)]
        rfl
      rw [if_neg (by simp [hb0, hskip]), htrim, hreach]
      generalize trimLoop M u.length = T at htext hzero ⊢
      have hT0 : T 0 = b := (Mem.HasStr.cons_iff.mp htext).1
      have hle := length_trimmed_le u
      rw [List.length_cons] at hlen ⊢
      rw [if_neg (by rwa [hT0])]
      simp only [List.head?_cons, Option.some.injEq, hskip.1, hskip.2, false_or, List.cons_ne_nil]
      by_cases hwhite : trimmed (b :: u) = []
      · -- one byte of the white space is left, and taken for the end of a keyword
        rw [if_pos hwhite, hwhite]
        refine iff_of_false ?_ fun ⟨_, h, _⟩ => by cases h
        rintro ⟨hderived, -⟩
        have hb : isSpace b = true := List.rdropWhile_eq_nil_iff.mp hwhite b List.mem_cons_self
        have hscan : scanSpace T 0 = some 0 :=
          Mem.scan_eq (a := []) htext (fun x hx => absurd hx List.not_mem_nil) hb (by decide)
        have hkeyword : (T.store 0 [0]).HasStr 0 [] :=
          Mem.HasStr.nil_iff.mpr (Mem.store_singleton T 0 0)
        have hempty : lineString (T.store 0 [0]) 0 = [] := hkeyword.cstr_eq (by decide)
        have hne : T 0 ≠ 0 := by rwa [hT0]
        simp only [parseTrimmed, hscan, if_neg hne, hempty, lookupKeyword_nil] at hderived
        cases hderived
      · rw [if_neg hwhite]
        have hkeep : trimmed (b :: u) = b :: trimmed u := by
          rw [trimmed_cons] at hwhite ⊢
          split_ifs at hwhite ⊢ with h
          · exact absurd rfl hwhite
          · rfl
        refine parseTrimmed_exact_iff opts (hkeep ▸ htext) hwhite (isSpace_getLast_trimmed hwhite)
          (fun i hi => hzero i ?_) ?_ (by omega)
        all_goals
          rw [hkeep, List.length_cons] at *
          omega

/-! ### The lines of a file -/

section

variable (opts : CommandOptions) (exits : Command → Option Bytes → Option Bytes → Bool)

/-- What the lines say, one after the other, up to one that ends the program. -/
def directives : List Bytes → List Derived
  | [] => []
  | line :: rest =>
      let d := lineDirective opts line
      d :: if d.stops exits then [] else directives rest

/-- The file is read line by line: what is derived from a line is what the line says, whatever the
lines in front of it are, and every index that is scanned or written lies within the line. -/
structure ReadsLines (ls : List Bytes) (ps : List Parsed) : Prop where
  derived : ps.map Parsed.derived = directives opts exits ls
  reach : ∀ (i : ℕ) (p : Parsed) (line : Bytes), ps[i]? = some p → ls[i]? = some line →
    p.reach ≤ (lineText line).length

/-- Every line that is reached is sound. -/
def SoundLines (ls : List Bytes) : Prop :=
  ∀ i line, ls[i]? = some line →
    (∀ l ∈ ls.take i, (lineDirective opts l).stops exits = false) → SoundLine opts line

lemma readsLines_cons (m : Mem) (line : Bytes) (ls : List Bytes) (p : Parsed) (ps : List Parsed)
    (hp : p = parseLine opts (m.store 0 (line ++ [0]))) :
    ReadsLines opts exits (line :: ls) (p :: if p.derived.stops exits then [] else ps) ↔
      LineExact opts m line ∧
        ((lineDirective opts line).stops exits = false → ReadsLines opts exits ls ps) := by
  subst hp
  constructor
  · rintro ⟨hderived, hreach⟩
    rw [List.map_cons, directives, List.cons.injEq] at hderived
    obtain ⟨hd, hrest⟩ := hderived
    refine ⟨⟨hd, hreach 0 _ line rfl rfl⟩, fun hgo => ⟨?_, fun i p l hi hl => ?_⟩⟩
    · simpa only [hd, hgo, Bool.false_eq_true, if_false] using hrest
    · refine hreach (i + 1) p l ?_ hl
      rw [hd, hgo]
      exact hi
  · rintro ⟨⟨hd, hle⟩, hrest⟩
    rw [hd]
    cases hstops : (lineDirective opts line).stops exits with
    | true =>
        refine ⟨by simp [directives, hd, hstops], fun i p l hi hl => ?_⟩
        cases i with
        | zero =>
            obtain rfl := Option.some.inj hi
            obtain rfl := Option.some.inj hl
            exact hle
        | succ i => simp at hi
    | false =>
        obtain ⟨hderived, hreach⟩ := hrest hstops
        refine ⟨by simp [directives, hd, hstops, hderived], fun i p l hi hl => ?_⟩
        cases i with
        | zero =>
            obtain rfl := Option.some.inj hi
            obtain rfl := Option.some.inj hl
            exact hle
        | succ i => exact hreach i p l (by simpa using hi) hl

lemma soundLines_cons (line : Bytes) (ls : List Bytes) :
    SoundLines opts exits (line :: ls) ↔
      SoundLine opts line ∧
        ((lineDirective opts line).stops exits = false → SoundLines opts exits ls) := by
  constructor
  · intro h
    refine ⟨h 0 line rfl fun l hl => absurd hl List.not_mem_nil, fun hgo i l hi hbefore => ?_⟩
    refine h (i + 1) l hi ?_
    rw [List.take_succ_cons]
    exact List.forall_mem_cons.mpr ⟨hgo, hbefore⟩
  · rintro ⟨hline, hrest⟩ i l hi hbefore
    cases i with
    | zero => exact Option.some.inj hi ▸ hline
    | succ i =>
        rw [List.take_succ_cons] at hbefore
        obtain ⟨hgo, hbefore⟩ := List.forall_mem_cons.mp hbefore
        exact hrest hgo i l hi hbefore

lemma readsLines_iff (m : Mem) {ls : List Bytes}
    (hls : ∀ line ∈ ls, line.length ≤ lineBufferSize - 2) :
    ReadsLines opts exits ls (parseLines opts exits m ls) ↔ SoundLines opts exits ls := by
  induction ls generalizing m with
  | nil =>
      refine iff_of_true ⟨rfl, ?_⟩ ?_
      · rintro i p line hi -
        cases hi
      · rintro i line hi
        cases hi
  | cons line ls ih =>
      obtain ⟨hline, hls⟩ := List.forall_mem_cons.mp hls
      rw [parseLines, readsLines_cons opts exits m line ls _ _ rfl, soundLines_cons,
        parseLine_exact_iff opts m hline, ih _ hls]

/-- **Configuration lines are independent** exactly when every line that is reached is sound: one
that is not has its arguments taken from what earlier lines have left in the buffer, or from
beyond it, or is white space that is not ignored. -/
theorem parse_exact_iff (m : Mem) (file : Bytes)
    (hfile : ∀ line ∈ lines 10 file, line.length ≤ lineBufferSize - 2) :
    ReadsLines opts exits (lines 10 file) (parse opts exits m file) ↔
      SoundLines opts exits (lines 10 file) := by
  rw [parse, pieces_eq_lines 10 hfile]
  exact readsLines_iff opts exits m hfile

end

/-- A comment, a directive with one argument, and one with two. -/
theorem parse_exact_sound :
    ReadsLines {} (fun _ _ _ => false) (lines 10 (str "# boa\nPort 80\nAlias /doc /usr/doc\n"))
      (parse {} (fun _ _ _ => false) (fun _ => 0)
        (str "# boa\nPort 80\nAlias /doc /usr/doc\n")) := by
  refine (parse_exact_iff {} (fun _ _ _ => false) (fun _ => 0) _ (by decide)).mpr
    fun i line hi _ => ?_
  have hmem : line ∈ [str "# boa\n", str "Port 80\n", str "Alias /doc /usr/doc\n"] :=
    List.mem_of_getElem? hi
  simp only [List.mem_cons, List.not_mem_nil, or_false] at hmem
  rcases hmem with rfl | rfl | rfl
  · exact Or.inr (Or.inl rfl)
  · refine Or.inr (Or.inr (Or.inr ⟨str "80", rfl, fun p hp htype => ?_⟩))
    have hport : lookupKeyword {} (str "Port") = some ⟨str "Port", .oneArg⟩ := by decide
    obtain rfl := Option.some.inj (hport.symm.trans hp)
    cases htype
  · refine Or.inr (Or.inr (Or.inr ⟨str "/doc /usr/doc", rfl, fun p _ _ => by decide⟩))

/-- A directive without an argument is given one that the line in front of it has left. -/
theorem parse_not_independent :
    ¬∀ (opts : CommandOptions) (exits : Command → Option Bytes → Option Bytes → Bool) (m : Mem)
      (file : Bytes), (∀ line ∈ lines 10 file, line.length ≤ lineBufferSize - 2) →
      ReadsLines opts exits (lines 10 file) (parse opts exits m file) := by
  intro hall
  have hreads := hall {} (fun _ _ _ => false) (fun _ => 0)
    (str "ServerAdmin webmaster@localhost extra\nUserDir\n") (by decide)
  rw [parse, pieces_eq_lines 10 (by decide)] at hreads
  have hsound := (readsLines_iff _ _ _ (by decide)).mp hreads 1 (str "UserDir\n") (by decide)
    (by decide)
  have hword : afterWord (trimmed (lineText (str "UserDir\n"))) = none := by decide
  rcases hsound with h | h | h | ⟨args, h, -⟩
  · exact absurd h (by decide)
  · exact absurd h (by decide)
  · exact absurd h (by decide)
  · rw [hword] at h
    cases h

end Yabwf
