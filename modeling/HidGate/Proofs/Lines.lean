import HidGate.Proofs.Tokens

/-!
# Reading a line

An argument is held until the next shows that it is complete. What is held makes no difference to what comes next: a
side goes on as if all its texts had been checked as soon as they came. So options may stand between the texts of a
command, and the texts come to the same values as without them.
-/

namespace HidGate.Monitor

open HexByte (IsToken)

/-! ## Lines -/

def IsVerbose (word : String) : Prop := word = "-v" ∨ word = "--verbose"

def IsConfig (word : String) : Prop := word = "-c" ∨ word = "--config"

structure IsPath (path : String) : Prop where
  given : path.isEmpty = false
  plain : Argument.of path = .plain path

/-- Options before the command's name, each at most once: the path given, and whether more is asked for. -/
inductive Before : Option String → Bool → List String → Prop
  | nil : Before none false []
  | verbose {config : Option String} {args : List String} {word : String} (asks : IsVerbose word)
      (rest : Before config false args) : Before config true (word :: args)
  | config {verbose : Bool} {args : List String} {word path : String} (asks : IsConfig word) (value : IsPath path)
      (rest : Before none verbose args) : Before (some path) verbose (word :: path :: args)

/-- Texts after the command's name, with options between them until a separator says that there are no more. -/
inductive After : Bool → Option String → Bool → List String → List String → Prop
  | nil {literal : Bool} : After literal none false [] []
  | text {literal verbose : Bool} {config : Option String} {args texts : List String} {text : String}
      (plain : literal = true ∨ Argument.of text = .plain text) (rest : After literal config verbose args texts) :
      After literal config verbose (text :: args) (text :: texts)
  | separator {args texts : List String} (rest : After true none false args texts) :
      After false none false ("--" :: args) texts
  | verbose {config : Option String} {args texts : List String} {word : String} (asks : IsVerbose word)
      (rest : After false config false args texts) : After false config true (word :: args) texts
  | config {verbose : Bool} {args texts : List String} {word path : String} (asks : IsConfig word)
      (value : IsPath path) (rest : After false none verbose args texts) :
      After false (some path) verbose (word :: path :: args) texts

/-- A line that gives a command these texts, and the path of its settings. A path after the name wins. -/
inductive Line (verb : Verb) (texts : List String) : Option String → List String → Prop
  | mk {c c' : Option String} {v v' : Bool} {before after : List String} (front : Before c v before)
      (back : After false c' v' after texts) : Line verb texts (c' <|> c) (before ++ verb.name :: after)

namespace Side

section
variable {s t : Side} {text word path : String} {texts : List String} {free : List Slot} {top : Bool} {k : Slot}
  {v : Value} {b : UInt8}

/-! ## Settling -/

theorem settle_of_nothing (held : s.held = .nothing) : s.settle = .ok s := by
  obtain ⟨config, verbose, held', free, values, literal⟩ := s
  cases held
  rfl

theorem of_settle (settled : s.settle = .ok t) : t.held = .nothing ∧ t.free = s.free ∧ t.literal = s.literal := by
  unfold settle at settled
  dsimp only at settled
  split at settled
  · cases settled
    exact ⟨rfl, rfl, rfl⟩
  · unfold setConfig at settled
    split at settled
    · cases settled
      exact ⟨rfl, rfl, rfl⟩
    · cases settled
  · split at settled
    · cases settled
      exact ⟨rfl, rfl, rfl⟩
    · cases settled

theorem awaits_of_settle (settled : s.settle = .ok t) : s.awaits = false := by
  cases held : s.held with
  | nothing => rw [awaits, held]; rfl
  | slot k texts => rw [awaits, held]; rfl
  | config path =>
    cases path with
    | some path => rw [awaits, held]; rfl
    -- an option that lacks its value cannot be settled
    | none =>
      unfold settle at settled
      rw [held] at settled
      cases settled

theorem settle_literal (settled : s.settle = .ok t) :
    ({ s with literal := true } : Side).settle = .ok { t with literal := true } := by
  unfold settle at settled ⊢
  dsimp only at settled ⊢
  split at settled
  · cases settled
    rfl
  · unfold setConfig at settled ⊢
    split at settled
    · cases settled
      simp_all
    · cases settled
  · split at settled
    · cases settled
      simp_all
    · cases settled

theorem settle_slot (held : s.held = .slot k texts) (checked : k.check texts = .ok v) :
    s.settle = .ok { s with held := .nothing, values := addValue v s.values } := by
  unfold settle
  rw [held]
  dsimp only
  rw [checked]

theorem settle_path (held : s.held = .config (some path)) (value : IsPath path) (first : s.config = none) :
    s.settle = .ok { s with held := .nothing, config := some path } := by
  unfold settle
  rw [held]
  simp [setConfig, readPath?, value.given, first]

/-! ## Options -/

theorem step_verbose (asks : IsVerbose word) (options : s.literal = false) (settled : s.settle = .ok t)
    (first : t.verbose = false) : s.step top word = .ok { t with verbose := true } := by
  have asked : s.setVerbose = .ok { t with verbose := true } := by
    simp only [setVerbose, settled, bind, Except.bind, first]
    rfl
  rcases asks with rfl | rfl
  · have letter : s.step top "-v" = s.setVerbose.bind (letters top []) := by
      unfold step
      rw [options]
      rfl
    rw [letter, asked]
    rfl
  · have long : s.step top "--verbose" = s.setVerbose := by
      unfold step
      rw [options]
      rfl
    rw [long, asked]

theorem step_config (asks : IsConfig word) (options : s.literal = false) (settled : s.settle = .ok t) :
    s.step top word = .ok { t with held := .config none } := by
  have begun : s.takeConfig none = .ok { t with held := .config none } := by
    simp only [takeConfig, settled, bind, Except.bind]
    rfl
  have same : s.step top word = s.takeConfig none := by
    unfold step
    rw [options]
    rcases asks with rfl | rfl <;> rfl
  rw [same, begun]

theorem step_path (value : IsPath path) (options : s.literal = false) (held : s.held = .config none) :
    s.step top path = .ok { s with held := .config (some path) } := by
  unfold step
  rw [options, value.plain, held]
  rfl

theorem step_separator (options : s.literal = false) : s.step top "--" = .ok { s with literal := true } := by
  unfold step
  rw [options]
  rfl

theorem step_text (plain : s.literal = true ∨ Argument.of text = .plain text) (ready : s.awaits = false) :
    s.step top text = s.take text := by
  have complete : s.held ≠ .config none := by simpa [awaits] using ready
  unfold step
  split
  · rfl
  · rename_i options
    rw [plain.resolve_left options]
    cases held : s.held with
    | nothing => rfl
    | config path =>
      cases path with
      | none => exact absurd held complete
      | some path => rfl
    | slot k texts => rfl

/-! ## Texts -/

theorem take_slot (settled : s.settle = .ok t) (first : t.free = k :: free) (single : k ≠ .bytes)
    (checked : k.check [text] = .ok v) :
    ∃ s', s.take text = .ok s' ∧ s'.settle = .ok { t with free, values := addValue v t.values } := by
  obtain ⟨held, same, -⟩ := of_settle settled
  have taken : s.take text = .ok { t with held := .slot k [text], free } := by
    unfold take
    rw [← same, first, settled]
    split
    · rename_i h; cases h
    · rename_i h _; cases h; exact absurd rfl single
    · rename_i h _; cases h; exact absurd rfl single
    · rename_i h _; cases h; rfl
  refine ⟨_, taken, ?_⟩
  rw [settle_slot rfl checked]
  simp [held]

theorem addValue_append (bs cs : Bytes) (values : List Value) :
    addValue (.bytes (bs ++ cs)) values = addValue (.bytes cs) (addValue (.bytes bs) values) := by
  cases last : values.getLast? with
  | none => simp [addValue, last]
  | some v =>
    cases v with
    | bytes old => simp [addValue, last]
    | path | byte | size => simp [addValue, last]

theorem check_bytes (texts : List String) : Slot.bytes.check texts = (texts.mapM (readByte .bytes)).map .bytes := by
  rw [Slot.check]

theorem check_bytes_concat {bs : Bytes} (checked : texts.mapM (readByte .bytes) = .ok bs)
    (read : readByte .bytes text = .ok b) : Slot.bytes.check (texts ++ [text]) = .ok (.bytes (bs ++ [b])) := by
  rw [check_bytes, List.mapM_append, checked, List.mapM_cons, read]
  rfl

/-- Bytes are the same whether they are checked at once or each when it comes. -/
theorem take_byte (settled : s.settle = .ok t) (last : t.free = .bytes :: free)
    (read : readByte .bytes text = .ok b) :
    ∃ s', s.take text = .ok s' ∧ s'.settle = .ok { t with values := addValue (.bytes [b]) t.values } := by
  obtain ⟨held, same, -⟩ := of_settle settled
  have first : s.free = .bytes :: free := by rw [← same, last]
  have single : Slot.bytes.check [text] = .ok (.bytes [b]) := @check_bytes_concat text [] b [] rfl read
  by_cases gathers : ∃ texts, s.held = .slot .bytes texts
  · obtain ⟨texts, gathering⟩ := gathers
    have taken : s.take text = .ok { s with held := .slot .bytes (texts ++ [text]) } := by
      rw [take, first, gathering]
    unfold settle at settled
    rw [gathering] at settled
    dsimp only at settled
    rw [check_bytes] at settled
    cases checked : texts.mapM (readByte .bytes) with
    | error r => rw [checked] at settled; cases settled
    | ok bs =>
      rw [checked] at settled
      cases settled
      -- the bytes held are checked again together with the new one
      refine ⟨_, taken, ?_⟩
      rw [settle_slot rfl (check_bytes_concat checked read), addValue_append]
  · have taken : s.take text = .ok { t with held := .slot .bytes [text] } := by
      unfold take
      rw [first]
      split
      · rename_i h; cases h
      · rename_i gathering; exact absurd ⟨_, gathering⟩ gathers
      · rw [settled]; rfl
      · rename_i other h _; cases h; exact absurd rfl other
    refine ⟨_, taken, ?_⟩
    rw [settle_slot rfl single]
    simp [held]

/-! ## What follows the name -/

def after (args : List String) (s : Side) : Except Ending Side := args.foldlM (fun s arg => s.step false arg) s

theorem after_cons {s' : Side} (stepped : s.step false text = .ok s') (texts : List String) :
    s.after (text :: texts) = s'.after texts := by
  unfold after
  rw [List.foldlM_cons, stepped]
  rfl

end

end Side

inductive Fills : List Slot → List Value → List String → List Value → Prop
  | nil {free : List Slot} {values : List Value} : Fills free values [] values
  | slot {k : Slot} {free : List Slot} {v : Value} {values all : List Value} {text : String} {texts : List String}
      (single : k ≠ .bytes) (checked : k.check [text] = .ok v)
      (rest : Fills free (Side.addValue v values) texts all) : Fills (k :: free) values (text :: texts) all
  | byte {free : List Slot} {b : UInt8} {values all : List Value} {text : String} {texts : List String}
      (read : readByte .bytes text = .ok b)
      (rest : Fills (.bytes :: free) (Side.addValue (.bytes [b]) values) texts all) :
      Fills (.bytes :: free) values (text :: texts) all

structure Side.Ends (config : Option String) (verbose : Bool) (values : List Value) (t : Side) : Prop where
  config : t.config = config
  verbose : t.verbose = verbose
  values : t.values = values

theorem After.ends {literal verbose : Bool} {config : Option String} {args texts : List String}
    (after : After literal config verbose args texts) {s t : Side} {all : List Value}
    (settled : s.settle = .ok t) (options : t.literal = literal) (silent : t.config = none ∨ config = none)
    (quiet : t.verbose = false ∨ verbose = false) (fills : Fills t.free t.values texts all) :
    ∃ s' t', s.after args = .ok s' ∧ s'.settle = .ok t' ∧ t'.Ends (config <|> t.config) (verbose || t.verbose) all := by
  -- on the arguments: whatever `s` holds, `t` is what it settles to, and the next argument keeps them so
  induction after generalizing s t with
  | nil =>
    generalize t.free = free at fills
    generalize values_eq : t.values = values at fills
    cases fills
    exact ⟨s, t, rfl, settled, rfl, rfl, values_eq⟩
  | text plain _ ih =>
    obtain ⟨-, -, same⟩ := Side.of_settle settled
    rw [← options, same] at plain
    have step := @Side.step_text s _ false plain (Side.awaits_of_settle settled)
    generalize free_eq : t.free = free at fills
    generalize values_eq : t.values = values at fills
    cases fills with
    | slot single checked fills =>
      obtain ⟨s₁, taken, settled₁⟩ := Side.take_slot settled free_eq single checked
      have ended := ih settled₁ options silent quiet (values_eq ▸ fills)
      rwa [Side.after_cons (step.trans taken)]
    | byte read fills =>
      obtain ⟨s₁, taken, settled₁⟩ := Side.take_byte settled free_eq read
      have ended := ih settled₁ options silent quiet (by rw [free_eq, values_eq]; exact fills)
      rwa [Side.after_cons (step.trans taken)]
  | separator _ ih =>
    obtain ⟨-, -, same⟩ := Side.of_settle settled
    have ended := ih (Side.settle_literal settled) rfl silent quiet fills
    rwa [Side.after_cons (Side.step_separator (same.symm.trans options))]
  | verbose asks _ ih =>
    obtain ⟨held, -, same⟩ := Side.of_settle settled
    have first : t.verbose = false := quiet.resolve_right nofun
    have ended := ih (@Side.settle_of_nothing { t with verbose := true } held) options silent (.inr rfl) fills
    rw [Side.after_cons (Side.step_verbose asks (same.symm.trans options) settled first)]
    exact ended
  | config asks value _ ih =>
    obtain ⟨held, -, same⟩ := Side.of_settle settled
    have first : t.config = none := silent.resolve_right nofun
    have ended := ih (@Side.settle_path { t with held := .config (some _) } _ rfl value first) options (.inr rfl)
      quiet fills
    have given := @Side.step_path { t with held := .config none } _ false value options rfl
    rw [Side.after_cons (Side.step_config asks (same.symm.trans options) settled), Side.after_cons given]
    exact ended

/-! ## What comes before it -/

section
variable {top t s : Side} {verb : Verb} {c : Command} {args : List String} {word path : String}

theorem IsVerbose.option (asks : IsVerbose word) (text : String) : Argument.of word ≠ .plain text := by
  have short : Argument.of "-v" = .short ['v'] := by decide
  have long : Argument.of "--verbose" = .long "verbose" none := by decide
  rcases asks with rfl | rfl
  · rw [short]; nofun
  · rw [long]; nofun

theorem IsConfig.option (asks : IsConfig word) (text : String) : Argument.of word ≠ .plain text := by
  have short : Argument.of "-c" = .short ['c'] := by decide
  have long : Argument.of "--config" = .long "config" none := by decide
  rcases asks with rfl | rfl
  · rw [short]; nofun
  · rw [long]; nofun

theorem readLine_option (option : ∀ text, Argument.of word ≠ .plain text) (stepped : top.step true word = .ok t) :
    readLine top (word :: args) = readLine t args := by
  rw [readLine.eq_def]
  dsimp only
  split
  · rename_i plain; exact absurd plain (option _)
  · rw [stepped]; rfl

theorem readLine_path (value : IsPath path) (options : top.literal = false) (held : top.held = .config none) :
    readLine top (path :: args) = readLine { top with held := .config (some path) } args := by
  have waits : top.awaits = true := by rw [Side.awaits, held]; rfl
  have unmarked : ¬ top.literal = true := by rw [options]; decide
  rw [readLine, value.plain]
  dsimp only
  rw [if_neg unmarked, if_pos waits, Side.step_path value options held]
  rfl

theorem readLine_name (options : top.literal = false) (settled : top.settle = .ok t)
    (command : readCommand verb args = .ok (c, s)) :
    readLine top (verb.name :: args) = .ok ⟨c, s.config <|> t.config, t.verbose || s.verbose⟩ := by
  have plain : Argument.of verb.name = .plain verb.name := by cases verb <;> decide
  have known : Verb.ofName? verb.name = some verb := by cases verb <;> decide
  rw [readLine, plain]
  dsimp only
  rw [options, Side.awaits_of_settle settled, readName, known]
  dsimp only
  rw [command, settled]
  rfl

theorem Before.readLine {config : Option String} {verbose : Bool} {before : List String}
    (front : Before config verbose before) (options : top.literal = false) (settled : top.settle = .ok t)
    (silent : t.config = none ∨ config = none) (quiet : t.verbose = false ∨ verbose = false)
    (command : readCommand verb args = .ok (c, s)) : Monitor.readLine top (before ++ verb.name :: args) =
      .ok ⟨c, s.config <|> (config <|> t.config), (verbose || t.verbose) || s.verbose⟩ := by
  induction front generalizing top t with
  | nil => exact readLine_name options settled command
  | verbose asks _ ih =>
    obtain ⟨held, -, same⟩ := Side.of_settle settled
    have first : t.verbose = false := quiet.resolve_right nofun
    have read := @ih { t with verbose := true } _ (same.trans options) (Side.settle_of_nothing held) silent (.inr rfl)
    rw [List.cons_append, readLine_option asks.option (Side.step_verbose asks options settled first)]
    exact read
  | config asks value _ ih =>
    obtain ⟨held, -, same⟩ := Side.of_settle settled
    have first : t.config = none := silent.resolve_right nofun
    have literal : t.literal = false := same.trans options
    have read := @ih { t with held := .config (some _) } _ literal (Side.settle_path rfl value first) (.inr rfl) quiet
    rw [List.cons_append, List.cons_append, readLine_option asks.option (Side.step_config asks options settled)]
    exact (@readLine_path { t with held := .config none } _ _ value literal rfl).trans read

end

/-! ## The whole line -/

section
variable {verb : Verb} {texts args : List String} {config : Option String} {verbose : Bool} {values : List Value}
  {c : Command}

theorem After.readCommand (back : After false config verbose args texts) (fills : Fills verb.slots [] texts values)
    (known : Command.of? verb values = some c) :
    ∃ s, Monitor.readCommand verb args = .ok (c, s) ∧ s.config = config ∧ s.verbose = verbose := by
  obtain ⟨s, t, taken, settled, ends⟩ := back.ends (s := .start verb.slots) rfl rfl (.inl rfl) (.inl rfl) fills
  refine ⟨t, ?_, ?_, ?_⟩
  · have taken' : args.foldlM (fun s arg => s.step false arg) (Side.start verb.slots) = .ok s := taken
    simp only [Monitor.readCommand, taken', settled, bind, Except.bind, ends.values, known]
    rfl
  · rw [ends.config]
    cases config <;> rfl
  · rw [ends.verbose]
    exact Bool.or_false verbose

/-- A line is read as the command whose slots its texts fill, with or without options between them. -/
theorem Line.read (line : Line verb texts config args) (fills : Fills verb.slots [] texts values)
    (known : Command.of? verb values = some c) : ∃ verbose, Monitor.read args = .ok ⟨c, config, verbose⟩ := by
  obtain @⟨c₁, c₂, v₁, v₂, before, after, front, back⟩ := line
  obtain ⟨s, command, given, asked⟩ := back.readCommand fills known
  have options : (Side.start []).literal = false := rfl
  have settled : (Side.start []).settle = .ok (.start []) := rfl
  have read := front.readLine options settled (.inl rfl) (.inl rfl) command
  have config : (c₁ <|> (Side.start []).config) = c₁ := by cases c₁ <;> rfl
  rw [given, asked, config] at read
  exact ⟨_, read⟩

end

/-! ### Lines with bytes -/

section
variable {node id : String} {texts args : List String} {r : UInt8} {ds : Bytes} {free : List Slot}
  {values : List Value} {config : Option String}

theorem Spell.after (spell : Spell ds texts) (literal : Bool) : After literal none false texts texts := by
  induction spell with
  | nil => exact .nil
  | cons token _ ih => exact .text (.inr (Argument.of_token token)) ih

theorem Spell.fills_on (spell : Spell ds texts) (values : List Value) (bs : Bytes) :
    Fills (.bytes :: free) (values ++ [.bytes bs]) texts (values ++ [.bytes (bs ++ ds)]) := by
  induction spell generalizing bs with
  | nil =>
    rw [List.append_nil]
    exact .nil
  | @cons b text ds texts token _ ih =>
    have rest := ih (bs ++ [b])
    rw [List.append_assoc] at rest
    refine .byte (readByte_token .bytes token) ?_
    simpa [Side.addValue] using rest

theorem Spell.fills (spell : Spell ds texts) (nonempty : ds ≠ [])
    (fresh : ∀ bs, Side.addValue (.bytes bs) values = values ++ [.bytes bs]) :
    Fills (.bytes :: free) values texts (values ++ [.bytes ds]) := by
  cases spell with
  | nil => exact absurd rfl nonempty
  | @cons b _ _ _ token rest =>
    refine .byte (readByte_token .bytes token) ?_
    rw [fresh]
    exact Spell.fills_on rest values [b]

theorem check_path (given : node.isEmpty = false) : Slot.path.check [node] = .ok (.path node) := by
  simp [Slot.check, readPath?, given]

theorem Line.read_write (line : Line .write (node :: texts) config args) (given : node.isEmpty = false)
    (spell : Spell ds texts) (nonempty : ds ≠ []) :
    ∃ verbose, Monitor.read args = .ok ⟨.write node ds, config, verbose⟩ :=
  line.read (.slot nofun (check_path given) (spell.fills nonempty fun _ => rfl)) rfl

theorem Line.read_setFeature (line : Line .setFeature (node :: id :: texts) config args)
    (given : node.isEmpty = false) (byte : IsToken r id.toList) (spell : Spell ds texts) (nonempty : ds ≠ []) :
    ∃ verbose, Monitor.read args = .ok ⟨.setFeature node r ds, config, verbose⟩ := by
  have number : Slot.byte.check [id] = .ok (.byte r) := by
    rw [Slot.check, readByte_token .byte byte]
    rfl
  exact line.read (.slot nofun (check_path given) (.slot nofun number (spell.fills nonempty fun _ => rfl))) rfl

end

end HidGate.Monitor
