import Yabwf.Containment

/-!
Host names: what `check_host` accepts, and what becomes of a name that it has accepted.

* `ValidHost`: letters, digits, hyphens and single dots, between letters or digits.
* `checkHost_pos_iff`: `check_host` accepts the valid names whose second character is no dot.
* `HostSegment`: the name is one segment of the paths that it is put into.
* `checkHost_exact_iff`: hence `check_host` does what it is for, but for names that begin with a
  label of one character.
-/

namespace Yabwf

/-- A host name of the form that `check_host` is to accept. -/
structure ValidHost (h : Bytes) : Prop where
  pos : 1 ≤ h.length
  le : h.length ≤ 63
  chars : ∀ b ∈ h, isAlnum b ∨ b = 45 ∨ b = 46
  first : ∀ b ∈ h.head?, isAlnum b
  last : ∀ b ∈ h.getLast?, isAlnum b
  dots : ¬[46, 46] <:+: h

/-! ### The automaton -/

lemma dots_cons_of_ne {b : UInt8} (hb : b ≠ 46) (s : Bytes) :
    ([46, 46] <:+: b :: s) ↔ ([46, 46] <:+: s) := by
  rw [List.infix_cons_iff]
  refine ⟨fun h => h.resolve_left fun hp => ?_, Or.inr⟩
  exact hb (List.cons_prefix_cons.mp hp).1.symm

lemma dots_cons_dot (s : Bytes) :
    ([46, 46] <:+: (46 : UInt8) :: s) ↔ s.head? = some 46 ∨ ([46, 46] <:+: s) := by
  rw [List.infix_cons_iff, List.cons_prefix_cons]
  refine or_congr_left ?_
  cases s with
  | nil => simp
  | cons b s => simp [eq_comm]

lemma isAlnum_ne {b : UInt8} (h : isAlnum b) : b ≠ 46 ∧ b ≠ 45 ∧ b ≠ 47 := by
  refine ⟨?_, ?_, ?_⟩ <;> rintro rfl <;> exact absurd h (by decide)

/-- **The flag of the loop** is right after every prefix: where it is not set, a dot counts as
the second one. -/
lemma checkHostLoop_iff (periodOk : Bool) (s : Bytes) :
    checkHostLoop periodOk s = true ↔
      (∀ b ∈ s, isAlnum b ∨ b = 45 ∨ b = 46) ∧
        ¬[46, 46] <:+: if periodOk then s else 46 :: s := by
  induction s generalizing periodOk with
  | nil =>
      cases periodOk
      · exact iff_of_true rfl ⟨fun b hb => absurd hb List.not_mem_nil, by decide⟩
      · exact iff_of_true rfl ⟨fun b hb => absurd hb List.not_mem_nil, by decide⟩
  | cons b s ih =>
      rw [checkHostLoop, List.forall_mem_cons]
      by_cases hb : isAlnum b ∨ b = 45
      · have hdot : b ≠ 46 := by
          rcases hb with hb | rfl
          · exact (isAlnum_ne hb).1
          · decide
        have htest : (isAlnum b || b == 45) = true := by simpa using hb
        rw [if_pos htest, ih true]
        have hdots : (¬[46, 46] <:+: if periodOk then b :: s else 46 :: b :: s) ↔
            ¬[46, 46] <:+: s := by
          cases periodOk
          · rw [if_neg Bool.false_ne_true, dots_cons_dot, dots_cons_of_ne hdot]
            simp [hdot]
          · rw [if_pos rfl, dots_cons_of_ne hdot]
        rw [hdots, if_pos rfl]
        have hchar : isAlnum b ∨ b = 45 ∨ b = 46 := hb.imp_right Or.inl
        simp [hchar]
      · have htest : ¬(isAlnum b || b == 45) = true := by simpa using hb
        rw [if_neg htest]
        by_cases hdot : b = 46
        · subst hdot
          cases periodOk
          · simp [dots_cons_dot]
          · simp [ih false]
        · have hchar : ¬(isAlnum b ∨ b = 45 ∨ b = 46) :=
            fun h => hb (h.imp_right fun h => h.resolve_right hdot)
          rw [if_neg (by simp [hdot])]
          exact iff_of_false Bool.false_ne_true fun h => hchar h.1.1

/-- **`check_host`** accepts the valid names whose second character is no dot. -/
lemma checkHost_pos_iff (h : Bytes) :
    0 < checkHost h ↔ ValidHost h ∧ h[1]? ≠ some 46 := by
  cases h with
  | nil =>
      refine ⟨fun hpos => absurd hpos (by decide), fun hvalid => ?_⟩
      exact absurd hvalid.1.pos (by decide)
  | cons b s =>
      have hlast : (b :: s).getLast? = some (s.getLastD b) := by
        cases s <;> simp [List.getLast?_cons]
      have hsecond : (b :: s)[1]? = s.head? := by
        cases s <;> rfl
      have hlen : (0 : ℤ) < ((b :: s).length : ℕ) := by
        exact_mod_cast Nat.succ_pos s.length
      rw [checkHost, hsecond]
      split_ifs with h₁ h₂ h₃ h₄
      · have hfirst : ¬isAlnum b := by simpa using h₁
        refine ⟨fun hpos => absurd hpos (by decide), fun ⟨hvalid, _⟩ => ?_⟩
        exact absurd (hvalid.first b rfl) hfirst
      · refine ⟨fun hpos => absurd hpos (by decide), fun ⟨hvalid, _⟩ => ?_⟩
        exact absurd hvalid.le (by omega)
      · have hfirst : isAlnum b := by simpa using h₁
        have hloop : ¬checkHostLoop false s = true := by simpa using h₃
        rw [checkHostLoop_iff, if_neg Bool.false_ne_true, dots_cons_dot] at hloop
        refine ⟨fun hpos => absurd hpos (by decide), fun ⟨hvalid, hdot⟩ => absurd ?_ hloop⟩
        refine ⟨fun x hx => hvalid.chars x (List.mem_cons_of_mem b hx), not_or.mpr ⟨hdot, ?_⟩⟩
        exact fun hdots => hvalid.dots ((dots_cons_of_ne (isAlnum_ne hfirst).1 s).mpr hdots)
      · have hend : ¬isAlnum (s.getLastD b) := by simpa using h₄
        refine ⟨fun hpos => absurd hpos (by decide), fun ⟨hvalid, _⟩ => ?_⟩
        exact absurd (hvalid.last _ hlast) hend
      · have hfirst : isAlnum b := by simpa using h₁
        have hloop : checkHostLoop false s = true := by simpa using h₃
        have hend : isAlnum (s.getLastD b) := by simpa using h₄
        rw [checkHostLoop_iff, if_neg Bool.false_ne_true, dots_cons_dot, not_or] at hloop
        refine ⟨fun _ => ⟨⟨?_, by omega, ?_, ?_, ?_, ?_⟩, hloop.2.1⟩, fun _ => hlen⟩
        · exact Nat.succ_pos s.length
        · exact List.forall_mem_cons.mpr ⟨Or.inl hfirst, hloop.1⟩
        · rintro x ⟨⟩
          exact hfirst
        · rw [hlast]
          rintro x ⟨⟩
          exact hend
        · rw [dots_cons_of_ne (isAlnum_ne hfirst).1]
          exact hloop.2.2

/-! ### The name in a path -/

/-- The name is a segment that leads down, and the paths that `translate_uri` and
`init_script_alias` put it into have it as one of their segments. -/
structure HostSegment (h : Bytes) : Prop where
  ne_nil : h ≠ []
  ne_dot : h ≠ str "."
  ne_dots : h ≠ str ".."
  translated : ∀ (cfg : Config) (env : Env) (buf : Memory.Mem) (r : Request) (v path : Bytes),
    cfg.vhostRoot = some v → r.host = some h → findAlias cfg.aliases r.requestUri = none →
    tildeDir cfg r.requestUri = none → (translateUri cfg env buf r).ret = true →
    (translateUri cfg env buf r).req.pathname = some path →
    path.splitOn 47 = (v ++ str "/" ++ r.localIpAddr).splitOn 47 ++
      h :: (str "htdocs" ++ r.requestUri).splitOn 47
  script : ∀ (cfg : Config) (r : Request) (a : Alias) (v rest : Bytes),
    cfg.vhostRoot = some v → r.host = some h →
    (scriptRoot cfg r a ++ rest).splitOn 47 = (v ++ str "/" ++ r.localIpAddr).splitOn 47 ++
      h :: (a.realname ++ rest).splitOn 47

lemma splitOn_middle {a h b : Bytes} (hh : 47 ∉ h) :
    (a ++ str "/" ++ h ++ str "/" ++ b).splitOn 47 = a.splitOn 47 ++ h :: b.splitOn 47 := by
  have hslash : str "/" = [47] := rfl
  rw [hslash, List.append_assoc, List.append_assoc, List.append_assoc, List.singleton_append,
    List.splitOn_append_cons_self, List.singleton_append,
    List.splitOn_append_cons_self_of_not_mem hh]

/-- The name of the file that a virtual host's URI stands for. -/
lemma translateUri_of_vhost {cfg : Config} {env : Env} {buf : Memory.Mem} {r : Request}
    {v h : Bytes} (hvhost : cfg.vhostRoot = some v) (hhost : r.host = some h)
    (hret : (translateUri cfg env buf r).ret = true)
    (halias : findAlias cfg.aliases r.requestUri = none)
    (htilde : tildeDir cfg r.requestUri = none) :
    (translateUri cfg env buf r).req.pathname =
      some (v ++ str "/" ++ r.localIpAddr ++ str "/" ++ h ++ str "/htdocs" ++ r.requestUri) := by
  rcases translateUri_cases cfg env buf r with ⟨a, hfind, -⟩ | ⟨a, hfind, -⟩
    | ⟨root, rest, -, hroot, -, heq⟩ | ⟨page, heq⟩
  · rw [halias] at hfind
    cases hfind
  · rw [halias] at hfind
    cases hfind
  · rw [uriRoot, halias, htilde, hvhost, hhost] at hroot
    obtain ⟨rfl, rfl⟩ := Prod.mk.inj (Option.some.inj hroot)
    rw [heq, translateTail]
    split_ifs <;> rfl
  · rw [heq] at hret
    cases hret

/-- A valid name is a segment wherever it is put between two slashes. -/
lemma ValidHost.hostSegment {h : Bytes} (hh : ValidHost h) : HostSegment h := by
  have hslash : 47 ∉ h := fun hmem => by
    rcases hh.chars 47 hmem with h47 | h47 | h47 <;> exact absurd h47 (by decide)
  have hfirst : ∀ s : Bytes, h = 46 :: s → False := by
    rintro s rfl
    exact (isAlnum_ne (hh.first 46 rfl)).1 rfl
  refine ⟨?_, hfirst [], hfirst [46], ?_, ?_⟩
  · rintro rfl
    exact absurd hh.pos (by decide)
  · intro cfg env buf r v path hvhost hhost halias htilde hret hpath
    rw [translateUri_of_vhost hvhost hhost hret halias htilde] at hpath
    have htext : str "/htdocs" ++ r.requestUri = str "/" ++ (str "htdocs" ++ r.requestUri) := rfl
    rw [← Option.some.inj hpath, List.append_assoc _ (str "/htdocs"), htext, ← List.append_assoc]
    exact splitOn_middle hslash
  · intro cfg r a v rest hvhost hhost
    rw [scriptRoot, hvhost, hhost, Option.getD_some, List.append_assoc _ a.realname rest]
    exact splitOn_middle hslash

/-- **`check_host`** accepts the valid names and no others, which are all segments of the paths
they are put into, but for the names that begin with a label of one character: the flag is not
set for the character in front of the loop. -/
theorem checkHost_exact_iff (h : Bytes) :
    ((0 < checkHost h ↔ ValidHost h) ∧ (0 < checkHost h → HostSegment h)) ↔
      ¬(ValidHost h ∧ h[1]? = some 46) := by
  rw [checkHost_pos_iff]
  constructor
  · rintro ⟨hexact, -⟩ ⟨hvalid, hdot⟩
    exact (hexact.mpr hvalid).2 hdot
  · intro hshort
    refine ⟨⟨And.left, fun hvalid => ⟨hvalid, fun hdot => hshort ⟨hvalid, hdot⟩⟩⟩, ?_⟩
    exact fun haccept => haccept.1.hostSegment

/-- `a.b` is a valid name that `check_host` refuses. -/
theorem checkHost_refuses_valid :
    ¬∀ h : Bytes, (0 < checkHost h ↔ ValidHost h) ∧ (0 < checkHost h → HostSegment h) := by
  intro hall
  have hvalid : ValidHost (str "a.b") := by
    refine ⟨?_, ?_, ?_, ?_, ?_, ?_⟩
    all_goals decide +kernel
  exact absurd ((hall (str "a.b")).1.mpr hvalid) (by decide)

end Yabwf
