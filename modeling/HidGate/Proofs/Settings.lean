import HidGate.Config
import HidGate.Proofs.Quotation

/-!
# Settings read back

The writer puts each setting on a line of its own, the times as decimal numbers and the name in the notation that suits
it. The reader takes the lines one by one, and each gives the value that it was written for. So settings that can be
written at all are read back as they were, and what keeps them from being written is said exactly.
-/

namespace HidGate.Toml

/-! ## Decimal numbers -/

section
variable {s rest : List Char} {c : Char} {n : Nat}

theorem digit?_of_isDigit (h : c.isDigit = true) : Number.digit? 10 c = some (c.toNat - 48) := by
  have codes : 48 ≤ c.val ∧ c.val ≤ 57 := by simpa [Char.isDigit] using h
  have bounds : '0' ≤ c ∧ c ≤ '9' := codes
  have low : c.toNat ≤ 57 := bounds.2
  have small : c.toNat - 48 < 10 := by omega
  simp [Number.digit?, Hex.value?, bounds, small]

theorem ne_of_isDigit {x : Char} (digit : c.isDigit = true) (mark : x.isDigit = false) : c ≠ x := by
  rintro rfl
  simp [digit] at mark

theorem moreDigits_append (digits : ∀ c ∈ s, c.isDigit = true) :
    Number.moreDigits 10 (s ++ '\n' :: rest) = (s.map (·.toNat - 48), '\n' :: rest) := by
  induction s with
  | nil =>
    have ends : Number.digit? 10 '\n' = none := by decide
    simp [Number.moreDigits, ends]
  | cons c s ih =>
    have first := digit?_of_isDigit (digits c List.mem_cons_self)
    have others := ih fun x hx => digits x (List.mem_cons_of_mem c hx)
    have apart : c ≠ '_' := ne_of_isDigit (digits c List.mem_cons_self) (by decide)
    rw [List.cons_append, Number.moreDigits]
    · simp [first, others]
    · intro _ _ h
      exact absurd h apart

theorem value_map (s : List Char) : Number.value 10 (s.map (·.toNat - 48)) = Nat.ofDigitChars 10 s 0 := by
  unfold Number.value Nat.ofDigitChars
  rw [List.foldl_map]
  congr 1
  funext n c
  rw [Nat.mul_comm]
  rfl

theorem toDigits_head (pos : 0 < n) : ∃ c t, Nat.toDigits 10 n = c :: t ∧ c ≠ '0' := by
  induction n using Nat.strongRecOn with
  | ind n ih =>
    by_cases small : n < 10
    · have digits : ∀ d : Fin 10, 0 < d.val → Nat.digitChar d.val ≠ '0' := by decide
      exact ⟨_, [], Nat.toDigits_of_lt_base small, digits ⟨n, small⟩ pos⟩
    · obtain ⟨c, t, front, apart⟩ := ih (n / 10) (by omega) (by omega)
      refine ⟨c, t ++ [Nat.digitChar (n % 10)], ?_, apart⟩
      rw [Nat.toDigits_of_base_le (by decide) (Nat.le_of_not_lt small), front, List.cons_append]

theorem isDigit_toDigits (n : Nat) : ∀ c ∈ Nat.toDigits 10 n, c.isDigit = true :=
  fun _ => Nat.isDigit_of_mem_toDigits (by decide) (by decide)

theorem decimal_toDigits :
    Number.decimal (Nat.toDigits 10 n ++ '\n' :: rest) =
      some ((Nat.toDigits 10 n).map (·.toNat - 48), '\n' :: rest) := by
  have digits := isDigit_toDigits n
  by_cases pos : 0 < n
  · obtain ⟨c, t, front, apart⟩ := toDigits_head pos
    rw [front] at digits ⊢
    have first := digit?_of_isDigit (digits c List.mem_cons_self)
    have others := @moreDigits_append t rest fun x hx => digits x (List.mem_cons_of_mem c hx)
    rw [List.cons_append, Number.decimal]
    · simp [Number.digits, first, others]
    · intro _ h
      exact absurd (List.cons.inj h).1 apart
  · have zero : n = 0 := by omega
    subst zero
    rfl

theorem toDigits_cons (n : Nat) : ∃ c t, Nat.toDigits 10 n = c :: t ∧ c.isDigit = true := by
  have digits := isDigit_toDigits n
  cases h : Nat.toDigits 10 n with
  | nil => exact absurd h Nat.toDigits_ne_nil
  | cons c t =>
    rw [h] at digits
    exact ⟨c, t, rfl, digits c List.mem_cons_self⟩

theorem sign_of_isDigit (digit : c.isDigit = true) : Number.sign (c :: s) = (false, c :: s) := by
  unfold Number.sign
  split
  · rename_i h
    cases h
    exact absurd digit (by decide)
  · rename_i h
    cases h
    exact absurd digit (by decide)
  · rfl

theorem sign_toDigits : Number.sign (Nat.toDigits 10 n ++ s) = (false, Nat.toDigits 10 n ++ s) := by
  obtain ⟨c, t, front, digit⟩ := toDigits_cons n
  rw [front, List.cons_append, sign_of_isDigit digit]

theorem toDigits_ne_based {b : Char} {r : List Char} (letter : b ≠ '\n') :
    Nat.toDigits 10 n ++ '\n' :: rest ≠ '0' :: b :: r := by
  intro h
  by_cases pos : 0 < n
  · obtain ⟨c, t, front, apart⟩ := toDigits_head pos
    rw [front] at h
    exact apart (List.cons.inj h).1
  · have zero : n = 0 := by omega
    subst zero
    exact letter (List.cons.inj (List.cons.inj h).2).1.symm

theorem inRange_natCast (fits : n < Config.integerBound) : Number.inRange n = some (n : Int) := by
  unfold Config.integerBound at fits
  have bounds : -0x8000000000000000 ≤ (n : Int) ∧ (n : Int) < 0x8000000000000000 := by omega
  exact if_pos bounds

theorem integer_of_decimal {r : List Char} {negative : Bool} {ds : List Nat} {m : Int}
    (plain : ∀ b u, b ≠ '\n' → s ≠ '0' :: b :: u) (sign : Number.sign s = (negative, r))
    (digits : Number.decimal r = some (ds, rest))
    (kept : Number.inRange (Number.signed negative (Number.value 10 ds)) = some m) :
    Number.integer s = some (m, rest) := by
  rw [Number.integer]
  · simp [sign, digits, kept]
  · exact fun _ => plain _ _ (by decide)
  · exact fun _ => plain _ _ (by decide)
  · exact fun _ => plain _ _ (by decide)

theorem integer_toDigits (fits : n < Config.integerBound) :
    Number.integer (Nat.toDigits 10 n ++ '\n' :: rest) = some ((n : Int), '\n' :: rest) := by
  have value : Number.signed false (Number.value 10 ((Nat.toDigits 10 n).map (·.toNat - 48))) = n := by
    rw [value_map, Nat.ofDigitChars_ten_toDigits]
    rfl
  apply integer_of_decimal (fun _ _ => toDigits_ne_based) sign_toDigits decimal_toDigits
  rw [value]
  exact inRange_natCast fits

/-! A number at the end of a line is neither a date nor a fraction: no mark follows the digits. -/

theorem field_digits {k x : Nat} {r : List Char} (digits : ∀ c ∈ s, c.isDigit = true)
    (taken : Moment.field k (s ++ '\n' :: rest) = some (x, r)) :
    ∃ t, r = t ++ '\n' :: rest ∧ ∀ c ∈ t, c.isDigit = true := by
  induction k generalizing s x with
  | zero =>
    cases taken
    exact ⟨s, rfl, digits⟩
  | succ k ih =>
    cases s with
    | nil =>
      have ends : Number.digit? 10 '\n' = none := by decide
      simp [Moment.field, ends] at taken
    | cons c s =>
      have first := digit?_of_isDigit (digits c List.mem_cons_self)
      simp only [List.cons_append, Moment.field, first, Option.bind_eq_bind, Option.bind_some, Option.bind_eq_some_iff,
        Option.pure_def, Option.some.injEq] at taken
      obtain ⟨⟨y, r'⟩, inner, whole⟩ := taken
      cases whole
      exact ih (fun x hx => digits x (List.mem_cons_of_mem c hx)) inner

theorem skip_digits (digits : ∀ c ∈ s, c.isDigit = true) (mark : c.isDigit = false) (inline : c ≠ '\n') :
    Moment.skip c (s ++ '\n' :: rest) = none := by
  cases s with
  | nil => simp [Moment.skip, inline.symm]
  | cons x s =>
    have apart : x ≠ c := ne_of_isDigit (digits x List.mem_cons_self) mark
    simp [Moment.skip, apart]

theorem moment_digits (digits : ∀ c ∈ s, c.isDigit = true) : Moment.read (s ++ '\n' :: rest) = none := by
  have noDate : Moment.readDate (s ++ '\n' :: rest) = none := by
    unfold Moment.readDate
    cases h : Moment.field 4 (s ++ '\n' :: rest) with
    | none => rfl
    | some found =>
      obtain ⟨t, left, digits⟩ := field_digits digits h
      simp [left, skip_digits digits (c := '-') (by decide) (by decide)]
  have noClock : Moment.readClock (s ++ '\n' :: rest) = none := by
    unfold Moment.readClock Moment.between
    cases h : Moment.field 2 (s ++ '\n' :: rest) with
    | none => rfl
    | some found =>
      obtain ⟨t, left, digits⟩ := field_digits digits h
      by_cases inside : found.1 ≤ 23
      · simp [inside, left, skip_digits digits (c := ':') (by decide) (by decide)]
      · simp [inside]
  simp [Moment.read, noDate, noClock]

theorem fraction_toDigits : Number.fraction (Nat.toDigits 10 n ++ '\n' :: rest) = none := by
  have whole : Number.finite (Nat.toDigits 10 n ++ '\n' :: rest) = none := by
    simp [Number.finite, sign_toDigits, decimal_toDigits, Number.exponent]
  have word : Number.special (Nat.toDigits 10 n ++ '\n' :: rest) = none := by
    obtain ⟨c, t, front, digit⟩ := toDigits_cons n
    have infinite : c ≠ 'i' := ne_of_isDigit digit (by decide)
    have nan : c ≠ 'n' := ne_of_isDigit digit (by decide)
    rw [front, List.cons_append]
    simp [Number.special, sign_of_isDigit digit, infinite, nan]
  simp [Number.fraction, whole, word]

end

/-! ## Lines -/

section
variable {w rest : List Char} {k : String} {v : Value} {t : Table} {n : Nat}

/-- The text stands for the value where a line ends after it. -/
structure Shows (w : List Char) (v : Value) : Prop where
  reads : ∀ rest, Document.value Document.depthLimit (w ++ '\n' :: rest) = some (v, '\n' :: rest)
  begins : ∃ c u, w = c :: u ∧ isBlank c = false

theorem value_eq_scalar {c : Char} {u : List Char} (plain : c ≠ '[' ∧ c ≠ '\x7b') (depth : Nat) :
    Document.value depth (c :: u) = Document.scalar (c :: u) := by
  cases depth with
  | zero => rfl
  | succ depth =>
    unfold Document.value
    split
    · rename_i h
      exact absurd (List.cons.inj h).1 plain.1
    · rename_i h
      exact absurd (List.cons.inj h).1 plain.2
    · rfl

theorem shows_toDigits (fits : n < Config.integerBound) : Shows (Nat.toDigits 10 n) (.integer n) := by
  obtain ⟨c, t, front, digit⟩ := toDigits_cons n
  have apart {x : Char} : x.isDigit = false → c ≠ x := ne_of_isDigit digit
  have quote : c ≠ quoteMark := apart (by decide)
  have single : c ≠ apostrophe := apart (by decide)
  have space : c ≠ ' ' := apart (by decide)
  have tab : c ≠ '\t' := apart (by decide)
  refine ⟨fun rest => ?_, c, t, front, ?_⟩
  · have number : Document.startsNumber c = true := by simp [Document.startsNumber, digit]
    have noMoment := @moment_digits _ rest (isDigit_toDigits n)
    have noFraction := @fraction_toDigits rest n
    have whole := @integer_toDigits rest n fits
    rw [front, List.cons_append] at *
    rw [value_eq_scalar ⟨apart (by decide), apart (by decide)⟩]
    simp [Document.scalar, quote, single, number, noMoment, noFraction, whole]
  · simp [isBlank, space, tab]

theorem shows_write? {name : List Char} (written : Quoted.write? name = some w) :
    Shows w (.string (String.ofList name)) := by
  obtain ⟨q, u, front, mark⟩ := Quoted.head_of_write? written
  have marks : q ≠ '[' ∧ q ≠ '\x7b' ∧ isBlank q = false := by
    rcases mark with rfl | rfl <;> decide
  refine ⟨fun rest => ?_, q, u, front, marks.2.2⟩
  have reads := @Quoted.read_of_write? _ ('\n' :: rest) _ written (by simp [quoteMark]) (by simp [apostrophe])
  rw [front, List.cons_append] at reads ⊢
  rw [value_eq_scalar ⟨marks.1, marks.2.1⟩]
  simp [Document.scalar, mark, reads]

structure IsBare (k : String) : Prop where
  plain : ∀ c ∈ k.toList, Document.isBare c = true
  begins : k.toList ≠ []

theorem ne_of_isBare {c x : Char} (bare : Document.isBare c = true) (mark : Document.isBare x = false) : c ≠ x := by
  rintro rfl
  simp [bare] at mark

theorem not_isBlank_of_isBare {c : Char} (bare : Document.isBare c = true) : isBlank c = false := by
  have space : c ≠ ' ' := ne_of_isBare bare (by decide)
  have tab : c ≠ '\t' := ne_of_isBare bare (by decide)
  simp [isBlank, space, tab]

theorem skipBlanks_cons {c : Char} {u : List Char} (ink : isBlank c = false) :
    Document.skipBlanks (c :: u) = c :: u := by
  simp [Document.skipBlanks, ink]

theorem part_of_isBare (key : IsBare k) :
    Document.part (k.toList ++ ' ' :: rest) = some (k, ' ' :: rest) := by
  have ends : Document.isBare ' ' = false := by decide
  cases front : k.toList with
  | nil => exact absurd front key.begins
  | cons c u =>
    have plain := key.plain
    rw [front] at plain
    have bare := plain c List.mem_cons_self
    have quote : c ≠ quoteMark := ne_of_isBare bare (by decide)
    have single : c ≠ apostrophe := ne_of_isBare bare (by decide)
    have word : ((c :: u) ++ ' ' :: rest).takeWhile Document.isBare = c :: u := by
      rw [List.takeWhile_append_of_pos plain]
      simp [ends]
    have left : ((c :: u) ++ ' ' :: rest).dropWhile Document.isBare = ' ' :: rest := by
      rw [List.dropWhile_append_of_pos plain]
      simp [ends]
    have whole : String.ofList (c :: u) = k := by rw [← front, String.ofList_toList]
    rw [List.cons_append] at word left ⊢
    simp [Document.part, quote, single, word, left, whole]

theorem key_of_isBare (key : IsBare k) :
    Document.key (k.toList ++ ' ' :: '=' :: rest) = some (([], k), '=' :: rest) := by
  have first : Document.skipBlanks (k.toList ++ ' ' :: '=' :: rest) = k.toList ++ ' ' :: '=' :: rest := by
    cases front : k.toList with
    | nil => exact absurd front key.begins
    | cons c u =>
      have bare := key.plain c (by rw [front]; exact List.mem_cons_self)
      exact skipBlanks_cons (not_isBlank_of_isBare bare)
  have gap : Document.skipBlanks (' ' :: '=' :: rest) = '=' :: rest := rfl
  have parts : Document.parts (78 + 1) (k.toList ++ ' ' :: '=' :: rest) = some ([k], '=' :: rest) := by
    rw [Document.parts]
    simp [first, part_of_isBare key, gap]
  have limit : Document.depthLimit = 78 + 1 := rfl
  rw [Document.key, limit, parts]
  rfl

theorem lines_pair {fuel : Nat} (key : IsBare k) (fresh : t.lookup k = none) (shown : Shows w v) :
    Document.lines (fuel + 1) ⟨t, []⟩ (Config.line k w ++ rest) = Document.lines fuel ⟨t.put k v, []⟩ rest := by
  have layout : Config.line k w ++ rest = k.toList ++ ' ' :: '=' :: ' ' :: (w ++ '\n' :: rest) := by
    simp [Config.line]
  have pair : Document.pairLine ⟨t, []⟩ (k.toList ++ ' ' :: '=' :: ' ' :: (w ++ '\n' :: rest)) =
      some (⟨t.put k v, []⟩, rest) := by
    obtain ⟨c, u, front, ink⟩ := shown.begins
    have gap : Document.skipBlanks (' ' :: (w ++ '\n' :: rest)) = w ++ '\n' :: rest := by
      rw [front]
      exact skipBlanks_cons ink
    have ends : Document.endOfLine ('\n' :: rest) = some rest := rfl
    have added : t.define [] [] k v = some (t.put k v) := by simp [Table.define, Table.within, Table.insert, fresh]
    simp [Document.pairLine, key_of_isBare key, gap, shown.reads, ends, added]
  cases front : k.toList with
  | nil => exact absurd front key.begins
  | cons c u =>
    have bare := key.plain c (by rw [front]; exact List.mem_cons_self)
    have bracket : c ≠ '[' := ne_of_isBare bare (by decide)
    have feed : c ≠ '\n' := ne_of_isBare bare (by decide)
    have hash : c ≠ '#' := ne_of_isBare bare (by decide)
    rw [front, List.cons_append] at pair layout
    have line : Document.line ⟨t, []⟩ (c :: (u ++ ' ' :: '=' :: ' ' :: (w ++ '\n' :: rest))) =
        some (⟨t.put k v, []⟩, rest) := by
      rw [Document.line]
      · exact pair
      · exact fun _ h => absurd (List.cons.inj h).1 bracket
      · exact fun _ h => absurd (List.cons.inj h).1 bracket
    rw [layout, Document.lines, skipBlanks_cons (not_isBlank_of_isBare bare)]
    simp [feed, hash, line]

end

/-! ## The text as a whole -/

theorem joinBreaks_of_not_mem {s : List Char} (h : '\r' ∉ s) : Document.joinBreaks s = s := by
  induction s with
  | nil => rfl
  | cons c s ih =>
    rw [List.mem_cons, not_or] at h
    rw [Document.joinBreaks, ih h.2]
    exact fun _ hc => absurd hc.symm h.1

end HidGate.Toml

namespace HidGate.Config

open Toml

def InRange (c : Config) : Prop := c.pollTimeout.toNat < integerBound ∧ c.errorBackoff.toNat < integerBound

def HasLongRun (c : Config) : Prop :=
  List.replicate 256 '"' <:+: c.threadName.toList ∨ List.replicate 256 '\'' <:+: c.threadName.toList

section
variable {c : Config} {w : List Char}

def text (c : Config) (name : List Char) : List Char :=
  line pollTimeoutKey (decimal c.pollTimeout) ++ line errorBackoffKey (decimal c.errorBackoff) ++
    line threadNameKey name

def table (c : Config) : Table :=
  [(pollTimeoutKey, .integer c.pollTimeout.toNat), (errorBackoffKey, .integer c.errorBackoff.toNat),
    (threadNameKey, .string c.threadName)]

theorem isBare_keys : IsBare pollTimeoutKey ∧ IsBare errorBackoffKey ∧ IsBare threadNameKey :=
  ⟨⟨List.all_eq_true.mp (by decide), by decide⟩, ⟨List.all_eq_true.mp (by decide), by decide⟩,
    ⟨List.all_eq_true.mp (by decide), by decide⟩⟩

theorem keys_apart :
    pollTimeoutKey ≠ errorBackoffKey ∧ pollTimeoutKey ≠ threadNameKey ∧ errorBackoffKey ≠ threadNameKey := by decide

theorem lines_text (range : c.InRange) (written : Quoted.write? c.threadName.toList = some w) (fuel : Nat) :
    Document.lines (fuel + 4) ⟨[], []⟩ (text c w) = some (table c) := by
  obtain ⟨bare, bare', bare''⟩ := isBare_keys
  obtain ⟨apart, apart', apart''⟩ := keys_apart
  have name := shows_write? written
  rw [String.ofList_toList] at name
  have poll : Shows (decimal c.pollTimeout) _ := shows_toDigits range.1
  have backoff : Shows (decimal c.errorBackoff) _ := shows_toDigits range.2
  calc Document.lines (fuel + 4) ⟨[], []⟩ (text c w)
    _ = Document.lines (fuel + 3) ⟨[(pollTimeoutKey, .integer c.pollTimeout.toNat)], []⟩
          (line errorBackoffKey (decimal c.errorBackoff) ++ line threadNameKey w) := by
        rw [text, List.append_assoc, lines_pair bare rfl poll]
        rfl
    _ = Document.lines (fuel + 2)
          ⟨[(pollTimeoutKey, .integer c.pollTimeout.toNat), (errorBackoffKey, .integer c.errorBackoff.toNat)], []⟩
          (line threadNameKey w ++ []) := by
        rw [lines_pair bare' (by simp [List.lookup_cons, beq_false_of_ne apart.symm]) backoff, List.append_nil]
        simp only [Table.put, if_neg apart]
    _ = Document.lines (fuel + 1) ⟨table c, []⟩ [] := by
        rw [lines_pair bare''
          (by simp [List.lookup_cons, beq_false_of_ne apart'.symm, beq_false_of_ne apart''.symm]) name]
        simp only [Table.put, if_neg apart', if_neg apart'', table]
    _ = some (table c) := rfl

theorem ofTable?_table (range : c.InRange) : ofTable? (table c) = some c := by
  obtain ⟨apart, apart', apart''⟩ := keys_apart
  have kept {n default : UInt64} (fits : n.toNat < integerBound) :
      time? default (some (.integer n.toNat)) = some n := by
    have bound : (0 : Int) ≤ n.toNat ∧ (n.toNat : Int) < integerBound := by omega
    simp only [time?, if_pos bound, Int.toNat_natCast, UInt64.ofNat_toNat]
  simp [ofTable?, table, List.lookup_cons, beq_false_of_ne apart.symm, beq_false_of_ne apart'.symm,
    beq_false_of_ne apart''.symm, kept range.1, kept range.2, name?]

theorem return_not_mem_text (written : Quoted.write? c.threadName.toList = some w) : '\r' ∉ text c w := by
  have number (n : UInt64) : '\r' ∉ decimal n := fun h => absurd (isDigit_toDigits _ _ h) (by decide)
  have keys : '\r' ∉ pollTimeoutKey.toList ∧ '\r' ∉ errorBackoffKey.toList ∧ '\r' ∉ threadNameKey.toList := by decide
  simp [text, line, keys, number, Quoted.return_not_mem_write? written]

theorem dropMark_text : Document.dropMark (text c w) = text c w := by
  have key : pollTimeoutKey.toList = 'p' :: pollTimeoutKey.toList.tail := by decide
  rw [text, line, key]
  simp [Document.dropMark]

theorem three_le_length : 3 ≤ (text c w).length := by
  simp [text, line]
  omega

theorem parse_text (range : c.InRange) (written : Quoted.write? c.threadName.toList = some w) :
    parse (String.ofList (text c w)) = some c := by
  obtain ⟨fuel, enough⟩ : ∃ fuel, (text c w).length + 1 = fuel + 4 :=
    ⟨(text c w).length - 3, by have := three_le_length (c := c) (w := w); omega⟩
  have table : Document.parse (text c w) = some (table c) := by
    rw [Document.parse, dropMark_text, joinBreaks_of_not_mem (return_not_mem_text written)]
    have whole := lines_text range written fuel
    rw [← enough] at whole
    exact whole
  rw [parse, String.toList_ofList, table, Option.bind_some, ofTable?_table range]

theorem write_of_inRange (range : c.InRange) (written : Quoted.write? c.threadName.toList = some w) :
    write c = .ok (String.ofList (text c w)) := by
  rw [write, if_pos (show _ ∧ _ from range), written]
  rfl

theorem write_of_run (range : c.InRange) (run : c.HasLongRun) : write c = .error .longRun := by
  have refused : Quoted.write? c.threadName.toList = none := Quoted.write?_eq_none_iff.mpr run
  rw [write, if_pos (show _ ∧ _ from range), refused]

theorem write_of_not_inRange (late : ¬c.InRange) : write c = .error .outOfRange := if_neg late

end

/-- Settings are written and read back as they were iff both times are integers of a document and the name has no run of
256 equal quotes. The times are looked at first; nothing else keeps settings from being written, and none that are
written read back as others. -/
theorem settings_kept_iff (c : Config) :
    ((∃ text, write c = .ok text ∧ parse text = some c) ↔ c.InRange ∧ ¬c.HasLongRun) ∧
      (∀ text, write c = .ok text → parse text = some c) ∧
      (write c = .error .outOfRange ↔ ¬c.InRange) ∧
      (write c = .error .longRun ↔ c.InRange ∧ c.HasLongRun) := by
  by_cases range : c.InRange
  · by_cases run : c.HasLongRun
    · have refused := write_of_run range run
      simp [refused, range, run]
    · obtain ⟨w, written⟩ : ∃ w, Quoted.write? c.threadName.toList = some w := by
        rw [← Option.ne_none_iff_exists']
        exact fun refused => run (Quoted.write?_eq_none_iff.mp refused)
      have kept := write_of_inRange range written
      have back := parse_text range written
      simp [kept, back, range, run]
  · have refused := write_of_not_inRange range
    simp [refused, range]

/-- A name of 256 quotes: both times are small, and still there is no text. -/
theorem settings_lost_to_run :
    let c : Config := ⟨1000, 100, String.ofList (List.replicate 256 '"')⟩
    c.InRange ∧ write c = .error .longRun := by
  intro c
  have range : c.InRange := ⟨by decide, by decide⟩
  have run : c.HasLongRun := by
    unfold HasLongRun
    rw [String.toList_ofList]
    exact .inl (List.infix_refl _)
  exact ⟨range, write_of_run range run⟩

end HidGate.Config
