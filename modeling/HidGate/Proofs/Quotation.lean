import HidGate.Toml.Quoted
import Mathlib.Algebra.Group.Nat.Defs

/-!
# A quoted text reads back

The writer chooses a notation by what the text holds, and the reader undoes each of them. Over several lines a quote
ends the text only if two more follow, and the reader looks ahead for them; so what matters there is how many quotes
stand in a row.
-/

namespace HidGate.Toml.Quoted

/-! ## Runs of a quote -/

section
variable {q : Char} {s t rest : List Char} {n m k : Nat}

theorem runFrom_mono (h : n ≤ m) : runFrom q n s ≤ runFrom q m s := by
  induction s generalizing n m with
  | nil => exact h
  | cons c s ih =>
    simp only [runFrom]
    split
    · exact ih (Nat.succ_le_succ h)
    · omega

theorem runFrom_replicate : runFrom q n (List.replicate m q ++ s) = runFrom q (n + m) s := by
  induction m generalizing n with
  | zero => rfl
  | succ m ih =>
    rw [List.replicate_succ, List.cons_append, runFrom, if_pos rfl, ih]
    congr 1
    omega

theorem le_runFrom : n ≤ runFrom q n s := by
  induction s generalizing n with
  | nil => exact Nat.le_refl n
  | cons c s ih =>
    simp only [runFrom]
    split
    · exact Nat.le_trans (Nat.le_succ n) ih
    · exact Nat.le_max_left ..

theorem infix_append_cons_iff {c : Char} {p a b : List Char} (apart : c ∉ p) :
    p <:+: a ++ c :: b ↔ p <:+: a ∨ p <:+: b := by
  constructor
  · rintro ⟨l, r, found⟩
    rw [List.append_assoc] at found
    rcases List.append_eq_append_iff.mp found with ⟨d, ha, hd⟩ | ⟨d, -, hd⟩
    · -- it begins in `a`
      rcases List.append_eq_append_iff.mp hd with ⟨e, he, -⟩ | ⟨e, he, hc⟩
      · exact .inl ⟨l, e, by rw [ha, he, List.append_assoc]⟩
      · cases e with
        | nil => exact .inl ⟨l, [], by rw [ha, he, List.append_nil, List.append_nil]⟩
        | cons x e =>
          cases hc
          exact absurd (by rw [he]; exact List.mem_append_right d List.mem_cons_self) apart
    · cases d with
      | nil =>
        cases p with
        | nil => exact .inr List.nil_infix
        | cons x p =>
          cases hd
          exact absurd List.mem_cons_self apart
      | cons x d =>
        cases hd
        exact .inr ⟨d, r, List.append_assoc ..⟩
  · rintro (h | h)
    · exact h.trans (List.prefix_append ..).isInfix
    · exact h.trans ((List.suffix_cons c b).trans (List.suffix_append ..)).isInfix

theorem replicate_infix_replicate_iff : List.replicate m q <:+: List.replicate n q ↔ m ≤ n := by
  constructor
  · intro h
    simpa using h.length_le
  · intro h
    refine List.IsPrefix.isInfix ⟨List.replicate (n - m) q, ?_⟩
    rw [List.replicate_append_replicate, Nat.add_sub_cancel' h]

theorem lt_runFrom_iff : k < runFrom q n s ↔ List.replicate (k + 1) q <:+: List.replicate n q ++ s := by
  induction s generalizing n with
  | nil => rw [runFrom, List.append_nil, replicate_infix_replicate_iff, Nat.succ_le_iff]
  | cons c s ih =>
    rw [runFrom]
    by_cases hc : c = q
    · subst hc
      have joined : List.replicate n c ++ c :: s = List.replicate (n + 1) c ++ s := by
        rw [List.replicate_succ', List.append_assoc, List.singleton_append]
      rw [if_pos rfl, ih, joined]
    · have apart : c ∉ List.replicate (k + 1) q := fun h => hc (List.eq_of_mem_replicate h)
      have behind : k < runFrom q 0 s ↔ List.replicate (k + 1) q <:+: s := ih
      rw [if_neg hc, infix_append_cons_iff apart, replicate_infix_replicate_iff, ← behind]
      omega

/-- The longest run is longer than `k` if and only if `k + 1` quotes stand in a row somewhere. -/
theorem lt_longestRun_iff : k < longestRun q s ↔ List.replicate (k + 1) q <:+: s := lt_runFrom_iff

/-! ## The closing quotes -/

theorem takeWhile_run (apart : rest.head? ≠ some q) :
    (List.replicate m q ++ rest).takeWhile (· == q) = List.replicate m q := by
  have none_there : rest.takeWhile (· == q) = [] := by
    cases rest with
    | nil => rfl
    | cons c rest =>
      have hc : ¬c = q := by simpa using apart
      simp [hc]
  rw [List.takeWhile_append_of_pos (by simp), none_there, List.append_nil]

theorem closing?_of_short (few : m < 2) (apart : rest.head? ≠ some q) :
    closing? q (List.replicate m q ++ rest) = none := by
  simp [closing?, takeWhile_run apart, few]

theorem closing?_of_run (few : m ≤ 2) (apart : rest.head? ≠ some q) :
    closing? q (List.replicate (m + 2) q ++ rest) = some (List.replicate m q, rest) := by
  have inner : min m 2 = m := Nat.min_eq_left few
  simp [closing?, takeWhile_run apart, inner]

/-- The text `s`, written as `u`, as it looks from behind a quote: it ends after at most one more, or something else
than a quote comes first. -/
inductive Ahead (q : Char) (s u : List Char) : Prop
  | last (m : Nat) (few : m ≤ 1) (text : s = List.replicate m q) (written : u = s)
  | within (m : Nat) (t : List Char) (few : m ≤ 1) (written : u = List.replicate m q ++ t) (nonempty : t ≠ [])
      (apart : t.head? ≠ some q)

/-- Behind a quote of the text the reader finds the end with all that is left, or it goes on. -/
theorem closing?_of_ahead {u : List Char} (h : Ahead q s u) (apart : rest.head? ≠ some q) :
    closing? q (u ++ (triple q ++ rest)) = some (q :: s, rest) ∨ closing? q (u ++ (triple q ++ rest)) = none := by
  cases h with
  | last m few text written =>
    left
    have joined : u ++ (triple q ++ rest) = List.replicate (m + 1 + 2) q ++ rest := by
      rw [written, text, ← List.append_assoc, show triple q = List.replicate 3 q from rfl,
        List.replicate_append_replicate]
    rw [joined, closing?_of_run (Nat.succ_le_succ few) apart, text, List.replicate_succ]
  | within m t few written nonempty apart =>
    right
    rw [written, List.append_assoc]
    apply closing?_of_short (Nat.lt_succ_of_le few)
    cases t with
    | nil => exact absurd rfl nonempty
    | cons c t => exact apart

theorem closing?_at_end (apart : rest.head? ≠ some q) : closing? q (q :: q :: rest) = some ([], rest) :=
  closing?_of_run (Nat.zero_le 2) apart

theorem exists_run (q : Char) (s : List Char) : ∃ m t, s = List.replicate m q ++ t ∧ t.head? ≠ some q := by
  induction s with
  | nil => exact ⟨0, [], rfl, by simp⟩
  | cons c s ih =>
    by_cases hc : c = q
    · subst hc
      obtain ⟨m, t, rfl, apart⟩ := ih
      exact ⟨m + 1, t, rfl, apart⟩
    · exact ⟨0, c :: s, rfl, by simpa using hc⟩

theorem ahead_of_runs (runs : longestRun q (q :: s) ≤ 2) : Ahead q s s := by
  obtain ⟨m, t, rfl, apart⟩ := exists_run q s
  have few : m ≤ 1 := by
    have long : m + 1 ≤ longestRun q (q :: (List.replicate m q ++ t)) := by
      have joined : q :: (List.replicate m q ++ t) = List.replicate (m + 1) q ++ t := rfl
      rw [longestRun, joined, runFrom_replicate, Nat.zero_add]
      exact le_runFrom
    omega
  by_cases nothing : t = []
  · subst nothing
    rw [List.append_nil]
    exact .last m few rfl rfl
  · exact .within m t few rfl nothing apart

theorem longestRun_tail {c : Char} (runs : longestRun q (c :: s) ≤ k) : longestRun q s ≤ k := by
  unfold longestRun at runs ⊢
  rw [runFrom] at runs
  split at runs
  · exact Nat.le_trans (runFrom_mono (Nat.zero_le 1)) runs
  · omega

end

/-! ## Literal strings -/

section
variable {s rest : List Char}

theorem literal_of_line (plain : ∀ c ∈ s, isPlain c = true) (free : apostrophe ∉ s) :
    literal false (s ++ apostrophe :: rest) = some (s, rest) := by
  induction s with
  | nil => rfl
  | cons c s ih =>
    have other : c ≠ apostrophe := fun h => free (by rw [h]; exact List.mem_cons_self)
    have first : isPlain c = true := plain c List.mem_cons_self
    have others := ih (fun x hx => plain x (List.mem_cons_of_mem c hx)) fun h => free (List.mem_cons_of_mem c h)
    simp [literal, other, first, others, push]

theorem literal_of_lines (plain : ∀ c ∈ s, isPlain c = true ∨ c = '\n') (runs : longestRun apostrophe s ≤ 2)
    (apart : rest.head? ≠ some apostrophe) : literal true (s ++ (triple apostrophe ++ rest)) = some (s, rest) := by
  induction s with
  | nil =>
    have closes := closing?_at_end apart
    simp [triple, literal, closes]
  | cons c s ih =>
    have others := ih (fun x hx => plain x (List.mem_cons_of_mem c hx)) (longestRun_tail runs)
    rw [List.cons_append]
    by_cases hc : c = apostrophe
    · subst hc
      rcases closing?_of_ahead (ahead_of_runs runs) apart with ends | goes_on
      · simp [literal, ends]
      · simp [literal, goes_on, others, push]
    · rcases plain c List.mem_cons_self with first | rfl
      · simp [literal, hc, first, others, push]
      · simp [literal, hc, others, push]

end

/-! ## Basic strings -/

section
variable {lines : Bool} {c : Char} {s t rest : List Char} {n : Nat}

theorem toNat_of_not_isPlain (h : isPlain c = false) : c.toNat < 0x20 ∨ c.toNat = 0x7f := by
  simp only [isPlain, Bool.or_eq_false_iff, Bool.and_eq_false_iff, decide_eq_false_iff_not, bne_eq_false_iff_eq] at h
  omega

theorem basic_code (width left value k : Nat) (more : 0 < left) :
    basic lines (.code (width + left) value) (Hex.fixed .upper width k ++ t) =
      basic lines (.code left (value * 16 ^ width + k % 16 ^ width)) t := by
  induction width generalizing k left t with
  | zero => simp [Hex.fixed, Nat.mod_one]
  | succ width ih =>
    have digit : k % 16 < 16 := Nat.mod_lt k (by decide)
    have shifted : k % 16 ^ (width + 1) = k / 16 % 16 ^ width * 16 + k % 16 := by
      rw [Nat.pow_succ, Nat.mul_comm, Nat.mod_mul]
      omega
    have width_left : width + 1 + left = width + (left + 1) := by omega
    have not_last : ¬left + 1 ≤ 1 := by omega
    rw [Hex.fixed, List.append_assoc, List.singleton_append, width_left, ih (left + 1) (k / 16) (Nat.succ_pos left),
      shifted]
    simp only [basic, Hex.value?_digit .upper digit, if_neg not_last, Nat.add_sub_cancel]
    rw [Nat.pow_succ, Nat.add_mul, Nat.mul_assoc, Nat.add_assoc]

theorem basic_unicode (low : c.toNat < 0x80) :
    basic lines (.code 4 0) (Hex.fixed .upper 4 c.toNat ++ t) = push c (basic lines .text t) := by
  have digit : c.toNat % 16 < 16 := Nat.mod_lt _ (by decide)
  have value : c.toNat / 16 % 16 ^ 3 * 16 + c.toNat % 16 = c.toNat := by omega
  have below : c.toNat < 0xd800 := by omega
  have scalar : scalar? c.toNat = some c := by simp [scalar?, below, Char.ofNat_toNat]
  have front := @basic_code lines ([Hex.Case.upper.digit (c.toNat % 16)] ++ t) 3 1 0 (c.toNat / 16) Nat.one_pos
  rw [Nat.zero_mul, Nat.zero_add] at front
  rw [Hex.fixed, List.append_assoc, front, List.singleton_append]
  simp only [basic, Hex.value?_digit .upper digit, value, scalar, Nat.le_refl, if_true]

theorem basic_named {x : Char} (named : escaped? x = some c) :
    basic lines .text (backslash :: x :: t) = push c (basic lines .text t) := by
  have marks : backslash ≠ quoteMark := by decide
  simp [basic, marks, named]

theorem basic_escape (other : c ≠ quoteMark) :
    basic lines .text (escape lines c ++ t) = push c (basic lines .text t) := by
  unfold escape
  split
  · subst c; exact basic_named rfl
  split
  · subst c; exact basic_named rfl
  split
  · subst c
    cases lines with
    | true => simp [basic, backslash, quoteMark]
    | false => exact basic_named rfl
  split
  · subst c; exact basic_named rfl
  split
  · subst c; exact basic_named rfl
  split
  · subst c; exact basic_named rfl
  split
  · simp [basic, *]
  · rename_i plain
    have low : c.toNat < 0x80 := by
      have := toNat_of_not_isPlain (Bool.eq_false_iff.mpr plain)
      omega
    have coded := @basic_unicode lines c t low
    simp [basic, escaped?, backslash, quoteMark, coded]

theorem escape_head (other : c ≠ quoteMark) :
    ∃ x u, escape lines c = x :: u ∧ x ≠ quoteMark ∧ (c ≠ '\n' → x ≠ '\n') := by
  have marks : backslash ≠ quoteMark ∧ backslash ≠ '\n' := by decide
  have named {u : List Char} : ∃ x v, backslash :: u = x :: v ∧ x ≠ quoteMark ∧ (c ≠ '\n' → x ≠ '\n') :=
    ⟨_, _, rfl, marks.1, fun _ => marks.2⟩
  unfold escape
  split
  · exact named
  split
  · exact named
  split
  · cases lines with
    | true => exact ⟨_, _, rfl, by decide, fun h => absurd ‹_› h⟩
    | false => exact named
  split
  · exact named
  split
  · exact named
  split
  · exact named
  split
  · exact ⟨c, [], rfl, other, id⟩
  · exact named

/-- On one line a quote is always escaped, so the first that is not ends the string. -/
theorem basic_of_line : basic false .text (escaped false n s ++ quoteMark :: rest) = some (s, rest) := by
  induction s generalizing n with
  | nil => simp [escaped, basic]
  | cons c s ih =>
    by_cases hc : c = quoteMark
    · subst hc
      have named : escaped? quoteMark = some quoteMark := rfl
      simp only [escaped, if_true, Bool.false_eq_true, if_false, Nat.not_lt_zero, List.cons_append]
      rw [basic_named named, ih]
      rfl
    · simp only [escaped, if_neg hc, List.append_assoc]
      rw [basic_escape hc, ih]
      rfl

theorem escaped_head : ∃ x u, escaped lines n (c :: s) = x :: u ∧ (c ≠ '\n' → x ≠ '\n') ∧
    (¬(c = quoteMark ∧ n < if lines then quotesInLines else 0) → x ≠ quoteMark) := by
  by_cases hc : c = quoteMark
  · by_cases bare : n < if lines then quotesInLines else 0
    · simp only [escaped, if_pos hc, if_pos bare]
      exact ⟨_, _, rfl, id, fun other => absurd ⟨hc, bare⟩ other⟩
    · simp only [escaped, if_pos hc, if_neg bare]
      exact ⟨_, _, rfl, fun _ => by decide, fun _ => by decide⟩
  · obtain ⟨x, u, written, apart, inline⟩ := @escape_head lines c hc
    simp only [escaped, if_neg hc, written, List.cons_append]
    exact ⟨x, _, rfl, inline, fun _ => apart⟩

theorem ahead_of_escaped (before : 0 < n) (few : n ≤ 2) : Ahead quoteMark s (escaped true n s) := by
  have within {m : Nat} {c : Char} {s u text : List Char} (few : m ≤ 1)
      (next : ¬(c = quoteMark ∧ n + m < quotesInLines))
      (written : u = List.replicate m quoteMark ++ escaped true (n + m) (c :: s)) : Ahead quoteMark text u := by
    obtain ⟨x, v, begins, -, apart⟩ := @escaped_head true c s (n + m)
    rw [begins] at written
    exact .within m (x :: v) few written (by simp) (by simpa using apart next)
  cases s with
  | nil => exact .last 0 (Nat.zero_le 1) rfl rfl
  | cons c s =>
    by_cases bare : c = quoteMark ∧ n < quotesInLines
    · -- then it is the second in a row
      obtain ⟨rfl, bare⟩ := bare
      have second : n = 1 := by
        unfold quotesInLines at bare
        omega
      subst second
      cases s with
      | nil => exact .last 1 (Nat.le_refl 1) rfl rfl
      | cons c' s => exact within (Nat.le_refl 1) (fun next => absurd next.2 (by decide)) rfl
    · exact within (Nat.zero_le 1) bare rfl

theorem basic_of_lines (few : n ≤ 2) (apart : rest.head? ≠ some quoteMark) :
    basic true .text (escaped true n s ++ (triple quoteMark ++ rest)) = some (s, rest) := by
  induction s generalizing n with
  | nil =>
    have closes := closing?_at_end apart
    simp [escaped, triple, basic, closes]
  | cons c s ih =>
    by_cases hc : c = quoteMark
    · subst hc
      by_cases bare : n < quotesInLines
      · have others := ih (n := n + 1) bare
        simp only [escaped, if_true, if_pos bare, List.cons_append]
        rcases closing?_of_ahead (ahead_of_escaped (s := s) (Nat.succ_pos n) bare) apart with ends | goes_on
        · simp [basic, ends]
        · simp [basic, goes_on, others, push]
      · have named : escaped? quoteMark = some quoteMark := rfl
        simp only [escaped, if_true, if_neg bare, List.cons_append]
        rw [basic_named named, ih (Nat.zero_le 2)]
        rfl
    · simp only [escaped, if_neg hc, List.append_assoc]
      rw [basic_escape hc, ih (Nat.zero_le 2)]
      rfl

end

/-! ## The notation that is chosen -/

section
variable {s rest : List Char}

def Style.Suits (s : List Char) : Style → Prop
  | .basic | .basicLines => True
  | .literal => (∀ c ∈ s, isPlain c = true) ∧ apostrophe ∉ s
  | .literalLines => (∀ c ∈ s, isPlain c = true ∨ c = '\n') ∧ longestRun apostrophe s ≤ 2

theorem suits_of (s : List Char) : (Style.of s).Suits s := by
  have one_of {b : Bool} {x y : Style} (left : b = true → x.Suits s) (right : y.Suits s) :
      Style.Suits s (if b = true then x else y) := by
    cases b with
    | true => exact left rfl
    | false => exact right
  refine one_of (fun _ => ?plain) (one_of (fun chosen => ?literal) (one_of (fun _ => ?lines)
    (one_of (fun chosen => ?literalLines) (one_of (fun _ => ?folded) ?rest))))
  case plain | lines | folded | rest => exact True.intro
  case literalLines =>
    simp only [Bool.and_eq_true, decide_eq_true_eq, List.all_eq_true, Bool.or_eq_true, beq_iff_eq] at chosen
    exact chosen
  case literal =>
    simp only [Bool.and_eq_true, Bool.not_eq_true', List.contains_eq_mem, decide_eq_false_iff_not, List.all_eq_true,
      Bool.or_eq_true, beq_iff_eq] at chosen
    obtain ⟨⟨plain, free⟩, inline⟩ := chosen
    refine ⟨fun c hc => ?_, free⟩
    rcases plain c hc with plain | rfl
    · exact plain
    · exact absurd hc inline

theorem read_of_line {u : List Char} (short : ∀ r, u ≠ quoteMark :: quoteMark :: r) :
    read (quoteMark :: u) = basic false .text u := by
  unfold read
  split
  · rename_i r h
    cases h
    exact absurd rfl (short r)
  · rename_i h
    cases h
  · rfl

theorem read_of_line' {u : List Char} (short : ∀ r, u ≠ apostrophe :: apostrophe :: r) :
    read (apostrophe :: u) = literal false u := by
  unfold read
  split
  · rename_i h
    cases h
  · rename_i r h
    cases h
    exact absurd rfl (short r)
  · rfl

theorem dropBreak_opening {u : List Char} (head : '\n' ∉ s → u.head? ≠ some '\n') :
    dropBreak (opening s ++ u) = u := by
  unfold opening
  by_cases lines : s.contains '\n' = true
  · rw [if_pos lines]
    rfl
  · rw [if_neg lines]
    have apart := head (by simpa using lines)
    cases u with
    | nil => rfl
    | cons c u =>
      unfold dropBreak
      split
      · rename_i h
        cases h
        exact absurd rfl apart
      · rfl

theorem Style.read_write {style : Style} (suits : style.Suits s) (apart : rest.head? ≠ some quoteMark)
    (apart' : rest.head? ≠ some apostrophe) : read (style.write s ++ rest) = some (s, rest) := by
  cases style with
  | basic =>
    have layout : Style.write s .basic ++ rest = quoteMark :: (escaped false 0 s ++ quoteMark :: rest) := by
      simp [Style.write]
    rw [layout, read_of_line, basic_of_line]
    intro r h
    cases s with
    | nil =>
      cases h
      exact apart rfl
    | cons c s =>
      obtain ⟨x, u, written, -, other⟩ := @escaped_head false c s 0
      rw [written, List.cons_append] at h
      exact other (by simp) (List.cons.inj h).1
  | literal =>
    obtain ⟨plain, free⟩ := suits
    have layout : Style.write s .literal ++ rest = apostrophe :: (s ++ apostrophe :: rest) := by
      simp [Style.write]
    rw [layout, read_of_line', literal_of_line plain free]
    intro r h
    cases s with
    | nil =>
      cases h
      exact apart' rfl
    | cons c s =>
      rw [List.cons_append] at h
      cases (List.cons.inj h).1
      exact free List.mem_cons_self
  | basicLines =>
    have layout : Style.write s .basicLines ++ rest =
        triple quoteMark ++ (opening s ++ (escaped true 0 s ++ (triple quoteMark ++ rest))) := by
      simp [Style.write]
    have text : read (triple quoteMark ++ (opening s ++ (escaped true 0 s ++ (triple quoteMark ++ rest)))) =
        Quoted.basic true .text (dropBreak (opening s ++ (escaped true 0 s ++ (triple quoteMark ++ rest)))) := rfl
    rw [layout, text, dropBreak_opening, basic_of_lines (Nat.zero_le 2) apart]
    intro inline
    cases s with
    | nil => simp [escaped, triple, quoteMark]
    | cons c s =>
      have other : c ≠ '\n' := fun h => inline (by rw [h]; exact List.mem_cons_self)
      obtain ⟨x, u, written, kept, -⟩ := @escaped_head true c s 0
      rw [written]
      simpa using kept other
  | literalLines =>
    obtain ⟨plain, runs⟩ := suits
    have layout : Style.write s .literalLines ++ rest =
        triple apostrophe ++ (opening s ++ (s ++ (triple apostrophe ++ rest))) := by
      simp [Style.write]
    have text : read (triple apostrophe ++ (opening s ++ (s ++ (triple apostrophe ++ rest)))) =
        Quoted.literal true (dropBreak (opening s ++ (s ++ (triple apostrophe ++ rest)))) := rfl
    rw [layout, text, dropBreak_opening, literal_of_lines plain runs apart']
    intro inline
    cases s with
    | nil => simp [triple, apostrophe]
    | cons c s =>
      have other : c ≠ '\n' := fun h => inline (by rw [h]; exact List.mem_cons_self)
      simpa using other

/-! ### Line breaks -/

theorem return_not_mem_fixed (width k : Nat) : '\r' ∉ Hex.fixed .upper width k := by
  induction width generalizing k with
  | zero => exact List.not_mem_nil
  | succ width ih =>
    have digits : ∀ d : Fin 16, Hex.Case.upper.digit d ≠ '\r' := by decide
    have last := digits ⟨k % 16, Nat.mod_lt k (by decide)⟩
    simpa [Hex.fixed, ih, eq_comm] using last

theorem return_not_mem_escape (lines : Bool) (c : Char) : '\r' ∉ escape lines c := by
  unfold escape
  split
  · decide
  split
  · decide
  split
  · cases lines <;> decide
  split
  · decide
  split
  · decide
  split
  · decide
  split
  · rename_i other _ _
    simpa [eq_comm] using other
  · have digits := return_not_mem_fixed 4 c.toNat
    simpa using digits

theorem return_not_mem_escaped (lines : Bool) (n : Nat) : '\r' ∉ escaped lines n s := by
  induction s generalizing n with
  | nil => exact List.not_mem_nil
  | cons c s ih =>
    have marks : '\r' ≠ quoteMark ∧ '\r' ≠ backslash := by decide
    by_cases hc : c = quoteMark
    · by_cases bare : n < if lines then quotesInLines else 0
      · simp only [escaped, if_pos hc, if_pos bare]
        simp [hc, marks, ih]
      · simp only [escaped, if_pos hc, if_neg bare]
        simp [hc, marks, ih]
    · simp only [escaped, if_neg hc]
      simp [return_not_mem_escape lines c, ih]

/-- Nothing is written that a line break in the document could be mistaken for. -/
theorem return_not_mem_write {style : Style} (suits : style.Suits s) : '\r' ∉ style.write s := by
  have begins : '\r' ∉ opening s := by
    unfold opening
    split <;> decide
  have marks : '\r' ≠ quoteMark ∧ '\r' ≠ apostrophe := by decide
  cases style with
  | basic => simp [Style.write, marks, return_not_mem_escaped]
  | basicLines => simp [Style.write, triple, marks, begins, return_not_mem_escaped]
  | literal =>
    have free : '\r' ∉ s := fun h => absurd (suits.1 _ h) (by decide)
    simp [Style.write, marks, free]
  | literalLines =>
    have free : '\r' ∉ s := fun h => absurd (suits.1 _ h) (by decide)
    simp [Style.write, triple, marks, begins, free]

/-! ### The whole -/

/-- There is a notation for each text that has no run of quotes too long to be counted. -/
theorem write?_eq_none_iff :
    write? s = none ↔ List.replicate 256 quoteMark <:+: s ∨ List.replicate 256 apostrophe <:+: s := by
  rw [← lt_longestRun_iff (k := 255), ← lt_longestRun_iff (k := 255)]
  unfold write? runBound
  by_cases fits : longestRun quoteMark s ≤ 255 ∧ longestRun apostrophe s ≤ 255
  · rw [if_pos fits]
    simp only [reduceCtorEq, false_iff]
    omega
  · rw [if_neg fits]
    simp only [true_iff]
    omega

/-- Whatever the text, what is written for it reads back as the text. -/
theorem read_of_write? {w : List Char} (written : write? s = some w) (apart : rest.head? ≠ some quoteMark)
    (apart' : rest.head? ≠ some apostrophe) : read (w ++ rest) = some (s, rest) := by
  unfold write? at written
  split at written
  · cases written
    exact Style.read_write (suits_of s) apart apart'
  · cases written

theorem return_not_mem_write? {w : List Char} (written : write? s = some w) : '\r' ∉ w := by
  unfold write? at written
  split at written
  · cases written
    exact return_not_mem_write (suits_of s)
  · cases written

theorem head_of_write? {w : List Char} (written : write? s = some w) :
    ∃ q u, w = q :: u ∧ (q = quoteMark ∨ q = apostrophe) := by
  unfold write? at written
  split at written
  · cases written
    cases Style.of s with
    | basic | basicLines => exact ⟨_, _, rfl, .inl rfl⟩
    | literal | literalLines => exact ⟨_, _, rfl, .inr rfl⟩
  · cases written

end

end HidGate.Toml.Quoted
