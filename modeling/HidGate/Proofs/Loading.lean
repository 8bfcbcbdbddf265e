import HidGate.Config
import HidGate.Proofs.Statements

/-!
# Settings of any document

Each setting is read off its own key of the top-level table: the default where the key is not there, its value where it
is of the right type and in range, and no settings at all otherwise. What else there is in the document, and in which
order, has no part in it. A file is read as the text that its bytes stand for.
-/

namespace HidGate.Config

open Toml

/-! ## One setting -/

inductive IsTime (default : UInt64) : Option Value → UInt64 → Prop
  | absent : IsTime default none default
  | present {n : UInt64} (fits : n.toNat < integerBound) : IsTime default (some (.integer n.toNat)) n

inductive IsName (default : String) : Option Value → String → Prop
  | absent : IsName default none default
  | present {s : String} : IsName default (some (.string s)) s

/-- An integer from 0 to 2⁶³ - 1, if anything. -/
def FitsTime (o : Option Value) : Prop := ∀ v ∈ o, ∃ n : Int, v = .integer n ∧ 0 ≤ n ∧ n ≤ 0x7fffffffffffffff

def FitsName (o : Option Value) : Prop := ∀ v ∈ o, ∃ s, v = .string s

section
variable {default n : UInt64} {name s : String} {o o' : Option Value}

theorem time?_integer {m : Int} (bounds : 0 ≤ m ∧ m < integerBound) :
    time? default (some (.integer m)) = some (UInt64.ofNat m.toNat) := if_pos bounds

theorem time?_eq_some_iff : time? default o = some n ↔ IsTime default o n := by
  constructor
  · intro read
    unfold time? at read
    split at read
    · cases read
      exact .absent
    · rename_i m
      split at read
      · rename_i bounds
        cases read
        have whole : (UInt64.ofNat m.toNat).toNat = m.toNat := by
          have small : m.toNat < 2 ^ 64 := by
            unfold integerBound at bounds
            omega
          exact Nat.mod_eq_of_lt small
        have back : m = ((UInt64.ofNat m.toNat).toNat : Int) := by omega
        have present : IsTime default (some (.integer ((UInt64.ofNat m.toNat).toNat : Int))) _ :=
          .present (by omega)
        rwa [← back] at present
      · cases read
    · cases read
  · intro time
    cases time with
    | absent => rfl
    | present fits => rw [time?_integer (by omega), Int.toNat_natCast, UInt64.ofNat_toNat]

theorem name?_eq_some_iff : name? name o = some s ↔ IsName name o s := by
  constructor
  · intro read
    unfold name? at read
    split at read
    · cases read
      exact .absent
    · cases read
      exact .present
    · cases read
  · intro named
    cases named <;> rfl

theorem exists_isTime_iff : (∃ n, IsTime default o n) ↔ FitsTime o := by
  constructor
  · rintro ⟨n, time⟩ v there
    cases time with
    | absent => cases there
    | present fits =>
      cases there
      unfold integerBound at fits
      exact ⟨_, rfl, by omega, by omega⟩
  · intro fits
    cases o with
    | none => exact ⟨_, .absent⟩
    | some v =>
      obtain ⟨m, rfl, low, high⟩ := fits v rfl
      have bounds : 0 ≤ m ∧ m < integerBound := ⟨low, by unfold integerBound; omega⟩
      exact ⟨_, time?_eq_some_iff.mp (time?_integer bounds)⟩

theorem exists_isName_iff : (∃ s, IsName name o s) ↔ FitsName o := by
  constructor
  · rintro ⟨s, named⟩ v there
    cases named with
    | absent => cases there
    | present =>
      cases there
      exact ⟨_, rfl⟩
  · intro fits
    cases o with
    | none => exact ⟨_, .absent⟩
    | some v =>
      obtain ⟨s, rfl⟩ := fits v rfl
      exact ⟨s, .present⟩

theorem eq_of_closed {α : Type} {f : Option Value → Option α} (refuses : ∀ v, v.isOpen = true → f (some v) = none)
    (same : o.map Value.closed? = o'.map Value.closed?) : f o = f o' := by
  cases o with
  | none =>
    cases o' with
    | none => rfl
    | some v' => cases same
  | some v =>
    cases o' with
    | none => cases same
    | some v' =>
      simp only [Option.map_some, Option.some.injEq, Value.closed?] at same
      -- values that are open may differ, but neither of them is a setting
      cases opened : v.isOpen <;> cases opened' : v'.isOpen <;> simp [opened, opened'] at same
      · rw [same]
      · rw [refuses v opened, refuses v' opened']

theorem time?_of_isOpen (v : Value) (opened : v.isOpen = true) : time? default (some v) = none := by
  cases v with
  | integer => cases opened
  | _ => rfl

theorem name?_of_isOpen (v : Value) (opened : v.isOpen = true) : name? name (some v) = none := by
  cases v with
  | string => cases opened
  | _ => rfl

end

/-! ## All of them -/

structure IsOf (c : Config) (t : Table) : Prop where
  pollTimeout : IsTime standard.pollTimeout (t.lookup pollTimeoutKey) c.pollTimeout
  errorBackoff : IsTime standard.errorBackoff (t.lookup errorBackoffKey) c.errorBackoff
  threadName : IsName standard.threadName (t.lookup threadNameKey) c.threadName

def keys : List String := [pollTimeoutKey, errorBackoffKey, threadNameKey]

section
variable {c : Config} {t t' : Table}

theorem ofTable?_eq_some_iff : ofTable? t = some c ↔ c.IsOf t := by
  simp only [ofTable?, Option.bind_eq_bind, Option.bind_eq_some_iff, Option.pure_def, Option.some.injEq,
    time?_eq_some_iff, name?_eq_some_iff]
  constructor
  · rintro ⟨n, pollTimeout, m, errorBackoff, s, threadName, rfl⟩
    exact ⟨pollTimeout, errorBackoff, threadName⟩
  · rintro ⟨pollTimeout, errorBackoff, threadName⟩
    exact ⟨_, pollTimeout, _, errorBackoff, _, threadName, rfl⟩

theorem exists_isOf_iff : (∃ c : Config, c.IsOf t) ↔ FitsTime (t.lookup pollTimeoutKey) ∧
    FitsTime (t.lookup errorBackoffKey) ∧ FitsName (t.lookup threadNameKey) := by
  rw [← @exists_isTime_iff standard.pollTimeout, ← @exists_isTime_iff standard.errorBackoff,
    ← @exists_isName_iff standard.threadName]
  constructor
  · rintro ⟨c, pollTimeout, errorBackoff, threadName⟩
    exact ⟨⟨_, pollTimeout⟩, ⟨_, errorBackoff⟩, ⟨_, threadName⟩⟩
  · rintro ⟨⟨n, pollTimeout⟩, ⟨m, errorBackoff⟩, ⟨s, threadName⟩⟩
    exact ⟨⟨n, m, s⟩, pollTimeout, errorBackoff, threadName⟩

theorem ofTable?_congr
    (same : ∀ key ∈ keys, (t.lookup key).map Value.closed? = (t'.lookup key).map Value.closed?) :
    ofTable? t = ofTable? t' := by
  simp only [keys, List.forall_mem_cons] at same
  obtain ⟨pollTimeout, errorBackoff, threadName, -⟩ := same
  rw [ofTable?, ofTable?, eq_of_closed time?_of_isOpen pollTimeout, eq_of_closed time?_of_isOpen errorBackoff,
    eq_of_closed name?_of_isOpen threadName]

end

/-! ## Files -/

theorem text?_eq_some_iff {bs : Bytes} {text : String} : text? bs = some text ↔ bs = text.toUTF8.data.toList := by
  unfold text? String.fromUTF8?
  constructor
  · intro read
    split at read
    · cases read
      rfl
    · cases read
  · rintro rfl
    have valid : ByteArray.IsValidUTF8 ⟨text.toUTF8.data.toList.toArray⟩ := text.isValidUTF8
    rw [dif_pos valid]
    rfl

section
variable {path : String}

theorem load_text (text : String) :
    load path (.ok text.toUTF8.data.toList) = (parse text).elim (.error (.malformed path)) .ok := by
  have read : text? text.toUTF8.data.toList = some text := text?_eq_some_iff.mpr rfl
  simp only [load, read]
  cases parse text <;> rfl

theorem load_bytes {bs : Bytes} (other : ∀ text : String, bs ≠ text.toUTF8.data.toList) :
    load path (.ok bs) = .error (.unreadable path notText) := by
  have unread : text? bs = none := by
    rw [Option.eq_none_iff_forall_ne_some]
    exact fun text read => other text (text?_eq_some_iff.mp read)
  simp only [load, unread]

end

/-! ## The whole -/

/-- The settings of a text are those of its top-level table, if it is a document at all, each setting by its own key:
there are settings if and only if each key that is there has a value of its type, in range. What the table has at a key
is what the document's statements mention it with. So two documents have the same settings, or both none, whose tables
agree on the three keys, or whose statements mention these three alike, in whatever order and whatever else they say. A
file has the settings of the text whose bytes it holds, and is unreadable if there is no such text. -/
theorem settings_of_document (text : String) :
    ((∃ c, parse text = some c) ↔ ∃ t, Document.parse text.toList = some t ∧ FitsTime (t.lookup pollTimeoutKey) ∧
      FitsTime (t.lookup errorBackoffKey) ∧ FitsName (t.lookup threadNameKey)) ∧
    (∀ c, parse text = some c ↔ ∃ t, Document.parse text.toList = some t ∧ c.IsOf t) ∧
    (∀ t, Document.parse text.toList = some t → ∃ xs, Document.read text.toList = some xs ∧
      Document.build xs = some t ∧ ∀ k o, (k, o) ∈ mentions [] xs ↔ (t.lookup k).map Value.closed? = some o) ∧
    (∀ text' t t', Document.parse text.toList = some t → Document.parse text'.toList = some t' →
      (∀ key ∈ keys, t.lookup key = t'.lookup key) → parse text = parse text') ∧
    (∀ text' xs xs', Document.read text.toList = some xs → Document.read text'.toList = some xs' →
      (Document.build xs).isSome = true → (Document.build xs').isSome = true →
      (∀ key ∈ keys, ∀ o, (key, o) ∈ mentions [] xs ↔ (key, o) ∈ mentions [] xs') → parse text = parse text') ∧
    ∀ path, load path (.ok text.toUTF8.data.toList) = (parse text).elim (.error (.malformed path)) .ok ∧
      (∀ bs, (∀ text : String, bs ≠ text.toUTF8.data.toList) → load path (.ok bs) = .error (.unreadable path notText)) ∧
      ∀ e, load path (.error e) = .error (.unreadable path e) := by
  have settings (c : Config) : parse text = some c ↔ ∃ t, Document.parse text.toList = some t ∧ c.IsOf t := by
    simp only [parse, Option.bind_eq_some_iff, ofTable?_eq_some_iff]
  refine ⟨?_, settings, fun t => Document.reflects_of_parse, ?_, ?_, fun path => ⟨load_text text, fun bs => load_bytes,
    fun e => rfl⟩⟩
  · simp only [settings, ← exists_isOf_iff]
    constructor
    · rintro ⟨c, t, parsed, own⟩
      exact ⟨t, parsed, c, own⟩
    · rintro ⟨t, parsed, c, own⟩
      exact ⟨c, t, parsed, own⟩
  · intro text' t t' parsed parsed' same
    rw [parse, parse, parsed, parsed', Option.bind_some, Option.bind_some]
    exact ofTable?_congr fun key hk => by rw [same key hk]
  · intro text' xs xs' stated stated' built built' same
    obtain ⟨t, parsed, reflects⟩ := Document.reflects_of_read stated built
    obtain ⟨t', parsed', reflects'⟩ := Document.reflects_of_read stated' built'
    rw [parse, parse, parsed, parsed', Option.bind_some, Option.bind_some]
    refine ofTable?_congr fun key hk => Option.ext fun o => ?_
    rw [← reflects key o, ← reflects' key o]
    exact same key hk o

/-- One of the documents has a table with the name of a setting in it, the other has it as a dotted key, after a
comment and with the number in another base. -/
theorem settings_of_two_documents :
    let text := "poll_timeout_ms = 25\n[device]\nthread_name = 3\n"
    let text' := "# ours\ndevice.thread_name = 3\npoll_timeout_ms = 0x19 # as before\n"
    parse text = parse text' ∧ parse text = some ⟨25, 100, "hidraw-events"⟩ ∧
      load "cfg" (.ok text'.toUTF8.data.toList) = .ok ⟨25, 100, "hidraw-events"⟩ := by
  intro text text'
  obtain ⟨-, -, -, agree, -, -⟩ := settings_of_document text
  obtain ⟨-, settings, -, -, -, files⟩ := settings_of_document text'
  have parsed : Document.parse text.toList =
      some [("poll_timeout_ms", .integer 25), ("device", .table .header [("thread_name", .integer 3)])] := by
    unfold text
    rfl
  have parsed' : Document.parse text'.toList =
      some [("device", .table .dotted [("thread_name", .integer 3)]), ("poll_timeout_ms", .integer 25)] := by
    unfold text'
    rfl
  have same : parse text = parse text' := by
    refine agree text' _ _ parsed parsed' fun key hk => ?_
    simp only [keys, List.mem_cons, List.not_mem_nil, or_false] at hk
    rcases hk with rfl | rfl | rfl <;> rfl
  have ours : parse text' = some ⟨25, 100, "hidraw-events"⟩ :=
    (settings _).mpr ⟨_, parsed', @IsTime.present _ 25 (by decide), .absent, .absent⟩
  refine ⟨same, same.trans ours, ?_⟩
  rw [(files "cfg").1, ours]
  rfl

end HidGate.Config
