import HidGate.Proofs.Lifecycle
import HidGate.Proofs.Settings

/-!
# Starts that fail

A thread's name cannot hold a zero character, but that of a document's settings can: every text is the name in some
document. A start under such a name crashes, though no listener runs, where a thread that the system refuses is only a
fault. Whichever way a start fails, the handle is as it was.
-/

namespace HidGate

open Toml

/-! ## Names in documents -/

theorem Toml.shows_basic (s : List Char) : Shows (Quoted.Style.basic.write s) (.string (String.ofList s)) := by
  have front : Quoted.Style.basic.write s = quoteMark :: (Quoted.escaped false 0 s ++ [quoteMark]) := rfl
  refine ⟨fun rest => ?_, _, _, front, by decide⟩
  have reads := @Quoted.Style.read_write s ('\n' :: rest) .basic trivial (by simp [quoteMark]) (by simp [apostrophe])
  rw [front, List.cons_append] at reads ⊢
  rw [value_eq_scalar (by decide), Document.scalar, if_pos (.inl rfl), reads]
  rfl

namespace Config

def naming (name : String) : String :=
  String.ofList (line threadNameKey (Quoted.Style.basic.write name.toList))

theorem parse_naming (name : String) : parse (naming name) = some { standard with threadName := name } := by
  obtain ⟨-, -, bare⟩ := isBare_keys
  obtain ⟨-, apart, apart'⟩ := keys_apart
  have key : threadNameKey.toList = 't' :: threadNameKey.toList.tail := by decide
  have plain : '\r' ∉ line threadNameKey (Quoted.Style.basic.write name.toList) := by
    have inKey : '\r' ∉ threadNameKey.toList := by decide
    simp [line, inKey, @Quoted.return_not_mem_write name.toList .basic trivial]
  have unmarked : Document.dropMark (line threadNameKey (Quoted.Style.basic.write name.toList)) =
      line threadNameKey (Quoted.Style.basic.write name.toList) := by
    rw [line, key]
    simp [Document.dropMark]
  have table : Document.parse (line threadNameKey (Quoted.Style.basic.write name.toList)) =
      some [(threadNameKey, .string name)] := by
    have shown := shows_basic name.toList
    rw [String.ofList_toList] at shown
    rw [Document.parse, unmarked, joinBreaks_of_not_mem plain]
    obtain ⟨fuel, enough⟩ : ∃ fuel, (line threadNameKey (Quoted.Style.basic.write name.toList)).length = fuel + 1 :=
      ⟨_, by rw [line, key]; simp; rfl⟩
    rw [enough]
    have read := @lines_pair _ [] threadNameKey _ [] (fuel + 1) bare rfl shown
    rw [List.append_nil] at read
    exact read
  rw [parse, naming, String.toList_ofList, table]
  simp [ofTable?, List.lookup_cons, beq_false_of_ne apart, beq_false_of_ne apart', time?, name?, standard]

end Config

/-! ## A start and its thread -/

namespace Handle

section
variable {σ : Type} {h h' : Handle σ} {who : Party} {refusal : Option SystemError} {o : Outcome}

/-- The listener is started, and all else is as it was but for the record. -/
structure Started (h h' : Handle σ) : Prop where
  listener : h'.listener = .running true (.working .check)
  rest : ∃ J, h' = { h with gate := { h.gate with journal := h.gate.journal ++ J }, listener := h'.listener }

inductive Launched (refusal : Option SystemError) (h : Handle σ) : Outcome → Handle σ → Prop
  | twice (running : h.listener.isRunning = true) : Launched refusal h (.crash (some startedTwice)) h
  | unnamed (stopped : h.listener.isRunning = false) (zero : '\x00' ∈ h.config.threadName.toList) :
      Launched refusal h (.crash none) h
  | refused {e : SystemError} (stopped : h.listener.isRunning = false) (plain : '\x00' ∉ h.config.threadName.toList)
      (denied : refusal = some e) : Launched refusal h (.fault (.io e)) h
  | started {h' : Handle σ} (stopped : h.listener.isRunning = false) (plain : '\x00' ∉ h.config.threadName.toList)
      (granted : refusal = none) (started : Started h h') : Launched refusal h .done h'

theorem launched (launch : h.start refusal who = (o, h')) : Launched refusal h o h' := by
  -- the name is looked at only if the listener has stopped, and the system asked only for a name that will do
  cases running : h.listener.isRunning with
  | true =>
    simp only [start, running, if_true] at launch
    cases launch
    exact .twice running
  | false =>
    by_cases zero : '\x00' ∈ h.config.threadName.toList
    · simp only [start, running, canName, List.contains_eq_mem, zero] at launch
      cases launch
      exact .unnamed running zero
    · simp only [start, running, canName, List.contains_eq_mem, zero] at launch
      cases refusal with
      | some e =>
        cases launch
        exact .refused running zero rfl
      | none =>
        cases launch
        have record : h.gate.journal ++ [.notice .listener .listenerStarted] ++
            [.notice who (.listening h.config.threadName)] = h.gate.journal ++ _ := List.append_assoc ..
        exact .started running zero rfl ⟨rfl, _, congrArg (fun J => { h with
          gate := { h.gate with journal := J }, listener := .running true (.working .check) }) record⟩

end

end Handle

/-! ## The whole -/

namespace System

section
variable {σ : Type} [Endpoint σ] [Surroundings σ]

/-- Whatever the settings, and whatever a handle has been through: a start of a stopped listener does not crash if and
only if there is no zero character in the thread's name, and each text is the name in some document. If it is done the
listener runs and all else is as it was but for the record. It is a fault only if the system refuses the thread, and
then, or if it crashes, the whole handle is as it was. A start of a running listener crashes. -/
theorem start_kept_iff {endpoint : σ} {config : Config} {k : Nat} {tr : Trace σ}
    (h : Follows (start (.fresh endpoint config) k) tr) :
    let u := final (start (.fresh endpoint config) k) tr
    (∀ n c refusal, u.clients[n]? = some c → c.activity = .enter (.start refusal) →
      ∃ o h', u.handle.start refusal (.client n) = (o, h') ∧
        Step u (.move (.run (.client n))) (u.turn n (c.finish o, h')) ∧
        (u.isListening = false → ((∀ m, o ≠ .crash m) ↔ '\x00' ∉ config.threadName.toList) ∧
          (o = .done ∧ refusal = none ∧ u.handle.Started h' ∨
            (∃ e, refusal = some e ∧ o = .fault (.io e)) ∧ h' = u.handle ∨ o = .crash none ∧ h' = u.handle)) ∧
        (u.isListening = true → o = .crash (some Handle.startedTwice) ∧ h' = u.handle)) ∧
    ∀ name, Config.parse (Config.naming name) = some { Config.standard with threadName := name } := by
  intro u
  refine ⟨fun n c refusal hc doing => ?_, Config.parse_naming⟩
  -- no step changes the settings, so the name is the one that the handle was made with
  have settings : u.handle.config = config := config_of_follows h
  obtain ⟨o, h', launch⟩ : ∃ o h', u.handle.start refusal (.client n) = (o, h') := ⟨_, _, rfl⟩
  refine ⟨o, h', launch, step_of_turn hc (by simp only [Handle.step?, doing, Handle.enter, launch]), ?_⟩
  rw [← settings, isListening]
  cases Handle.launched launch with
  | twice running => simp [running]
  | unnamed stopped zero => simp [stopped, zero]
  | refused stopped plain denied => simp [stopped, plain, denied]
  | started stopped plain granted started => simp [stopped, plain, granted, started]

/-- The listener has died and was joined, and a document has given its thread a name with a space in it. -/
theorem start_kept_of_plain_name :
    let config : Config := { Config.standard with threadName := "ev loop" }
    let s := start (.fresh Bench.fresh config) 1
    let tr := play s [.move (.ask 0 .start), .move (.run (.client 0)),
      .incident (Bench.Incident.arrive [.report ⟨[9], 5000⟩]), .move (.run .listener), .move (.run .listener),
      .move (.run .listener), .move (.run .listener), .move (.ask 0 .stop), .move (.run (.client 0)),
      .move (.run (.client 0)), .move (.run (.client 0)), .move (.run (.client 0)), .move (.run (.client 0)),
      .move (.ask 0 .start)]
    let u := final s tr
    tr.length = 14 ∧ u.isListening = false ∧ ∃ t, Step u (.move (.run (.client 0))) t ∧ u.handle.Started t.handle := by
  intro config s tr u
  have follows : Follows s tr := @follows_play Bench _ _ s _
  have all : tr.length = 14 := by decide +kernel
  have stopped : u.isListening = false := by decide +kernel
  have calls : u.clients[0]?.bind (·.activity.starting?) = some none := by decide +kernel
  obtain ⟨c, hc⟩ : ∃ c, u.clients[0]? = some c := Option.isSome_iff_exists.mp (by decide +kernel)
  rw [hc] at calls
  obtain ⟨starts, -⟩ := start_kept_iff follows
  obtain ⟨o, h', -, step, fresh, -⟩ := starts 0 c none hc (Activity.eq_of_starting calls)
  obtain ⟨plain, ends⟩ := fresh stopped
  have calm : ∀ m, o ≠ .crash m := plain.mpr (by decide)
  refine ⟨all, stopped, _, step, ?_⟩
  rcases ends with ⟨-, -, started⟩ | ⟨⟨e, denied, -⟩, -⟩ | ⟨crashed, -⟩
  · exact started
  · cases denied
  · exact absurd crashed (calm none)

/-- A document that is accepted names the thread with a zero character. The first start under it crashes. -/
theorem start_lost_to_zero :
    let config : Config := { Config.standard with threadName := "a\x00" }
    let u := after (start (.fresh Bench.fresh config) 1) [.move (.ask 0 .start)]
    Config.parse "thread_name = \"a\\u0000\"\n" = some config ∧ u.isListening = false ∧
      (after u [.move (.run (.client 0))]).clients[0]?.bind (·.reply) = some ⟨.crash none, []⟩ := by
  decide +kernel

end

end System

end HidGate
