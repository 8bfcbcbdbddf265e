import HidGate.SoftLock.Contest
import HidGate.Proofs.Steps
import Mathlib.Algebra.GroupWithZero.Nat

/-!
# Stealers in any order

The steps of a contest, whoever makes them and in whatever order. A step puts one byte into the pipe, or empties it, or
leaves it alone, so the bytes are those put in since it was last emptied, as far as they fit. A stealer has the right to
announce from before its announcement until after it has emptied the pipe. So there is one announcement at a time, and
none outlives its stealer.
-/

namespace HidGate

namespace Stint

def grabs : Stint → Bool
  | .stealing .grab | .leaving => false
  | .stealing _ => true

def holds : Stint → Bool
  | .stealing .clear | .stealing .ungrab | .leaving => true
  | _ => false

def hasAnnounced : Stint → Bool
  | .stealing .take | .stealing .clear | .stealing .ungrab => true
  | _ => false

def isDue : Stint → Bool
  | .stealing .ungrab | .leaving => false
  | .stealing _ => true

def stepsLeft : Stint → Nat
  | .stealing .grab => 6
  | .stealing .announce => 5
  | .stealing .take => 4
  | .stealing .clear => 3
  | .stealing .ungrab => 2
  | .leaving => 1

inductive Goes (p : Party) (l : SoftLock) : Stint → SoftLock → Option Stint → Prop
  | grabs (free : l.grabber = none) :
      Goes p l (.stealing .grab) { l with grabber := some p } (some (.stealing .announce))
  | announces : Goes p l (.stealing .announce) l.interrupt (some (.stealing .take))
  | takes (free : l.reader = none) :
      Goes p l (.stealing .take) { l with reader := some p } (some (.stealing .clear))
  | clears : Goes p l (.stealing .clear) l.drained (some (.stealing .ungrab))
  | ungrabs : Goes p l (.stealing .ungrab) l.ungrab (some .leaving)
  | leaves : Goes p l .leaving l.release none

theorem goes_of_step? {p : Party} {s : Stint} {l l' : SoftLock} {rest : Option Stint}
    (step : s.step? p l = some (l', rest)) : Goes p l s l' rest := by
  cases s with
  | leaving =>
    cases step
    exact .leaves
  | stealing st =>
    simp only [step?, Option.map_eq_some_iff] at step
    obtain ⟨⟨l₁, next⟩, step, same⟩ := step
    cases same
    cases st with
    | grab =>
      simp only [Steal.step?, Option.map_eq_some_iff, SoftLock.grab?_eq_some] at step
      obtain ⟨l₂, ⟨free, rfl⟩, same⟩ := step
      cases same
      exact .grabs free
    | take =>
      simp only [Steal.step?, Option.map_eq_some_iff, SoftLock.acquire?_eq_some] at step
      obtain ⟨l₂, ⟨free, rfl⟩, same⟩ := step
      cases same
      exact .takes free
    | announce =>
      cases step
      exact .announces
    | clear =>
      cases step
      exact .clears
    | ungrab =>
      cases step
      exact .ungrabs

theorem Goes.step? {p : Party} {s : Stint} {l l' : SoftLock} {rest : Option Stint} (h : Goes p l s l' rest) :
    s.step? p l = some (l', rest) := by
  cases h with
  | grabs free => simp [Stint.step?, Steal.step?, SoftLock.grab?, free]
  | takes free => simp [Stint.step?, Steal.step?, SoftLock.acquire?, free]
  | announces | clears | ungrabs | leaves => rfl

theorem Goes.grabs_eq {p : Party} {s : Stint} {l l' : SoftLock} {rest : Option Stint} (h : Goes p l s l' rest)
    (owned : s.grabs = true → l.grabber ≠ none) :
    (if rest.any Stint.grabs then 1 else 0) + (if l.grabber = none then 0 else 1) =
      (if s.grabs then 1 else 0) + (if l'.grabber = none then 0 else 1) := by
  cases h with
  | grabs free => simp [Stint.grabs, free]
  | ungrabs => simp [Stint.grabs, SoftLock.ungrab, owned rfl]
  | announces | takes | clears | leaves => rfl

theorem Goes.holds_eq {p : Party} {s : Stint} {l l' : SoftLock} {rest : Option Stint} (h : Goes p l s l' rest)
    (owned : s.holds = true → l.reader ≠ none) :
    (if rest.any Stint.holds then 1 else 0) + (if l.reader = none then 0 else 1) =
      (if s.holds then 1 else 0) + (if l'.reader = none then 0 else 1) := by
  cases h with
  | takes free => simp [Stint.holds, free]
  | leaves => simp [Stint.holds, SoftLock.release, owned rfl]
  | grabs | announces | clears | ungrabs => rfl

theorem Goes.reader_eq_some {p q : Party} {s : Stint} {l l' : SoftLock} {rest : Option Stint}
    (h : Goes p l s l' rest) (other : p ≠ q) (owned : s.holds = true → l.reader ≠ some q) :
    l'.reader = some q ↔ l.reader = some q := by
  cases h with
  | takes free => simp [free, other]
  | leaves => simp [SoftLock.release, owned rfl]
  | grabs | announces | clears | ungrabs => rfl

end Stint

theorem Pipe.notify_bytes {p : Pipe} {k : Nat} (h : p.bytes = min 65536 k) : p.notify.bytes = min 65536 (k + 1) := by
  simp only [notify, capacity, h]
  omega

namespace Contest

/-! ## Steps -/

inductive Act
  | interrupt
  | drain
  | acquire
  | release
  | yield
  | steal
  | arrive
  | stint (n : Nat) (s : Stint)
  deriving DecidableEq

def arrived (c : Contest) : Contest :=
  { c with stealers := c.stealers ++ [(c.issued + 1, .stealing .grab)], issued := c.issued + 1 }

inductive Step (c : Contest) : Act → Contest → Prop
  | interrupt : Step c .interrupt (c.interrupt 1)
  | drain : Step c .drain c.drain.2
  | acquire {d : Contest} (goes : c.acquire? = some d) : Step c .acquire d
  | release : Step c .release { c with lock := if c.lock.reader == some holder then c.lock.release else c.lock }
  | yield {d : Contest} (goes : c.yield? = some d) : Step c .yield d
  | steal {d : Contest} (goes : c.steal? = some d) : Step c .steal d
  | arrive : Step c .arrive c.arrived
  | stint {before after : List (Nat × Stint)} {n : Nat} {s : Stint} {l : SoftLock} {rest : Option Stint}
      (here : c.stealers = before ++ (n, s) :: after) (goes : s.step? (.client n) c.lock = some (l, rest)) :
      Step c (.stint n s) { c with lock := l, stealers := before ++ ((rest.map (n, ·)).toList ++ after) }

inductive Path : Contest → List Act → Contest → Prop
  | nil (c : Contest) : Path c [] c
  | cons {c d e : Contest} {a : Act} {as : List Act} (step : Step c a d) (rest : Path d as e) : Path c (a :: as) e

/-- What is in the pipe after this, in bytes put in since it was last emptied. A steal of the holder's puts one in and
empties the pipe. -/
def Act.tally (k : Nat) : Act → Nat
  | .interrupt | .stint _ (.stealing .announce) => k + 1
  | .drain | .steal | .stint _ (.stealing .clear) => 0
  | _ => k

def tally (k : Nat) (as : List Act) : Nat := as.foldl Act.tally k

def Act.onPipe (p : Pipe) : Act → Pipe
  | .interrupt | .stint _ (.stealing .announce) => p.notify
  | .drain | .steal | .stint _ (.stealing .clear) => .empty
  | _ => p

section
variable {c d e : Contest} {a : Act} {as bs : List Act} {k n : Nat} {s : Stint}

theorem Path.append (h : Path c as d) (h' : Path d bs e) : Path c (as ++ bs) e := by
  induction h with
  | nil => exact h'
  | cons step _ ih => exact .cons step (ih h')

theorem Path.single (step : Step c a d) : Path c [a] d := .cons step (.nil d)

theorem acquire?_eq_some_iff : c.acquire? = some d ↔
    c.lock.reader = none ∧ d = { c with lock := { c.lock with reader := some holder } } := by
  unfold acquire?
  simp only [Option.map_eq_some_iff, SoftLock.acquire?_eq_some]
  constructor
  · rintro ⟨l, ⟨free, rfl⟩, rfl⟩
    exact ⟨free, rfl⟩
  · rintro ⟨free, rfl⟩
    exact ⟨_, ⟨free, rfl⟩, rfl⟩

theorem yield?_eq_some_iff : c.yield? = some d ↔ c.lock.grabber = none ∧ d = c := by
  unfold yield?
  simp only [Option.map_eq_some_iff, SoftLock.grab?_eq_some]
  constructor
  · rintro ⟨l, ⟨free, rfl⟩, rfl⟩
    refine ⟨free, ?_⟩
    obtain ⟨⟨reader, grabber, pipe⟩, stealers, issued⟩ := c
    cases free
    rfl
  · rintro ⟨free, rfl⟩
    refine ⟨_, ⟨free, rfl⟩, ?_⟩
    obtain ⟨⟨reader, grabber, pipe⟩, stealers, issued⟩ := d
    cases free
    rfl

theorem steal?_eq_some_iff : c.steal? = some d ↔
    c.lock.reader = none ∧ c.lock.grabber = none ∧ d = { c with lock := ⟨some holder, none, .empty⟩ } := by
  obtain ⟨⟨reader, grabber, pipe⟩, stealers, issued⟩ := c
  unfold steal? stealAll?
  cases grabber with
  | some p => simp [Steal.step?, SoftLock.grab?]
  | none =>
    cases reader with
    | some p => simp [Steal.step?, SoftLock.grab?, SoftLock.acquire?, SoftLock.interrupt]
    | none =>
      simp [Steal.step?, SoftLock.grab?, SoftLock.acquire?, SoftLock.interrupt, SoftLock.drained, SoftLock.ungrab,
        Pipe.drain_eq]
      exact eq_comm

/-! ## The bytes in the pipe -/

theorem Step.pipe (st : Step c a d) : d.lock.pipe = a.onPipe c.lock.pipe := by
  cases st with
  | interrupt => rfl
  | drain => exact congrArg Prod.snd (Pipe.drain_eq c.lock.pipe)
  | acquire goes =>
    obtain ⟨-, rfl⟩ := acquire?_eq_some_iff.mp goes
    rfl
  | release =>
    dsimp only
    split <;> rfl
  | yield goes =>
    obtain ⟨-, rfl⟩ := yield?_eq_some_iff.mp goes
    rfl
  | steal goes =>
    obtain ⟨-, -, rfl⟩ := steal?_eq_some_iff.mp goes
    rfl
  | arrive => rfl
  | stint _ goes =>
    cases Stint.goes_of_step? goes with
    | clears => exact congrArg Prod.snd (Pipe.drain_eq c.lock.pipe)
    | _ => rfl

theorem Step.bytes (st : Step c a d) (counted : c.lock.pipe.bytes = min 65536 k) :
    d.lock.pipe.bytes = min 65536 (a.tally k) := by
  rw [st.pipe]
  unfold Act.onPipe Act.tally
  split
  · exact Pipe.notify_bytes counted
  · exact Pipe.notify_bytes counted
  · rfl
  · rfl
  · rfl
  · exact counted

theorem Path.bytes (path : Path c as d) (counted : c.lock.pipe.bytes = min 65536 k) :
    d.lock.pipe.bytes = min 65536 (tally k as) := by
  induction path generalizing k with
  | nil => exact counted
  | cons step _ ih => exact ih (step.bytes counted)

/-! ## Who has what -/

theorem countP_goes (f : Stint → Bool) (before after : List (Nat × Stint)) (n : Nat) (s : Stint) (rest : Option Stint) :
    (before ++ ((rest.map (n, ·)).toList ++ after)).countP (f ·.2) + (if f s then 1 else 0) =
      (before ++ (n, s) :: after).countP (f ·.2) + (if rest.any f then 1 else 0) := by
  cases rest with
  | none =>
    simp only [List.countP_append, List.countP_cons, Option.map_none, Option.toList_none, List.countP_nil,
      Option.any_none]
    simp
    omega
  | some s' =>
    simp only [List.countP_append, List.countP_cons, Option.map_some, Option.toList_some, List.countP_nil,
      Option.any_some]
    omega

/-- One stealer at most has the right to announce, and one at most, or else the holder, the read path. No stealer is
taken for the holder. -/
structure Kept (c : Contest) : Prop where
  grabs : c.stealers.countP (·.2.grabs) = if c.lock.grabber = none then 0 else 1
  holds : c.stealers.countP (·.2.holds) + (if c.lock.reader = some holder then 1 else 0) =
    if c.lock.reader = none then 0 else 1
  numbered : ∀ x ∈ c.stealers, 0 < x.1 ∧ x.1 ≤ c.issued

theorem Kept.start : Kept start := ⟨rfl, rfl, List.forall_mem_nil _⟩

namespace Kept

theorem number_ne_zero (kept : Kept c) (mem : (n, s) ∈ c.stealers) : n ≠ 0 :=
  Nat.pos_iff_ne_zero.mp (kept.numbered _ mem).1

theorem grabber_ne_none (kept : Kept c) (mem : (n, s) ∈ c.stealers) (own : s.grabs = true) : c.lock.grabber ≠ none := by
  intro free
  have grabs := kept.grabs
  rw [if_pos free, List.countP_eq_zero] at grabs
  exact grabs (n, s) mem own

theorem grabber_eq_none (kept : Kept c) (nobody : ¬ ∃ x ∈ c.stealers, x.2.grabs = true) : c.lock.grabber = none := by
  have none_grabs : c.stealers.countP (·.2.grabs) = 0 := by
    rw [List.countP_eq_zero]
    intro x mem grabs
    exact nobody ⟨x, mem, grabs⟩
  have grabs := kept.grabs
  rw [none_grabs] at grabs
  apply Classical.byContradiction
  intro taken
  rw [if_neg taken] at grabs
  cases grabs

theorem reader_of_holds (kept : Kept c) (mem : (n, s) ∈ c.stealers) (own : s.holds = true) :
    c.lock.reader ≠ none ∧ c.lock.reader ≠ some holder := by
  have one : 0 < c.stealers.countP (·.2.holds) := List.countP_pos_iff.mpr ⟨(n, s), mem, own⟩
  have holds := kept.holds
  constructor
  · intro free
    rw [if_pos free] at holds
    omega
  · intro held
    rw [if_pos held, if_neg (by simp [held])] at holds
    omega

theorem reader_eq_none (kept : Kept c) (nobody : ¬ ∃ x ∈ c.stealers, x.2.holds = true)
    (free : c.lock.reader ≠ some holder) : c.lock.reader = none := by
  have none_holds : c.stealers.countP (·.2.holds) = 0 := by
    rw [List.countP_eq_zero]
    intro x mem holds
    exact nobody ⟨x, mem, holds⟩
  have holds := kept.holds
  rw [none_holds, if_neg free] at holds
  apply Classical.byContradiction
  intro taken
  rw [if_neg taken] at holds
  cases holds

theorem stint {before after : List (Nat × Stint)} {l : SoftLock} {rest : Option Stint} (kept : Kept c)
    (here : c.stealers = before ++ (n, s) :: after) (goes : s.Goes (.client n) c.lock l rest) :
    Kept { c with lock := l, stealers := before ++ ((rest.map (n, ·)).toList ++ after) } := by
  have mem : (n, s) ∈ c.stealers := by rw [here]; simp
  have left_grabs := countP_goes Stint.grabs before after n s rest
  have left_holds := countP_goes Stint.holds before after n s rest
  rw [← here] at left_grabs left_holds
  refine ⟨?_, ?_, ?_⟩
  · have grabs := kept.grabs
    have moved := goes.grabs_eq (kept.grabber_ne_none mem)
    dsimp only
    omega
  · have holds := kept.holds
    have moved := goes.holds_eq fun own => (kept.reader_of_holds mem own).1
    have same_holder := goes.reader_eq_some (q := holder) (by simpa [holder] using kept.number_ne_zero mem)
      fun own => (kept.reader_of_holds mem own).2
    simp only [same_holder]
    omega
  · intro x mem'
    simp only [List.mem_append, Option.mem_toList, Option.map_eq_some_iff] at mem'
    rcases mem' with early | ⟨s', -, rfl⟩ | late
    · exact kept.numbered x (by rw [here]; simp [early])
    · exact kept.numbered (n, s) mem
    · exact kept.numbered x (by rw [here]; simp [late])

theorem step (kept : Kept c) (st : Step c a d) : Kept d := by
  have grabs := kept.grabs
  have holds := kept.holds
  have numbered := kept.numbered
  cases st with
  | interrupt => exact ⟨grabs, holds, numbered⟩
  | drain => exact ⟨grabs, holds, numbered⟩
  | acquire goes =>
    obtain ⟨free, rfl⟩ := acquire?_eq_some_iff.mp goes
    refine ⟨grabs, ?_, numbered⟩
    simp [free] at holds ⊢
    exact holds
  | release =>
    split
    · rename_i held
      rw [if_pos (eq_of_beq held), if_neg (by simp [eq_of_beq held])] at holds
      have nobody : c.stealers.countP (·.2.holds) = 0 := by omega
      exact ⟨grabs, by simpa [SoftLock.release] using nobody, numbered⟩
    · exact ⟨grabs, holds, numbered⟩
  | yield goes =>
    obtain ⟨-, rfl⟩ := yield?_eq_some_iff.mp goes
    exact ⟨grabs, holds, numbered⟩
  | steal goes =>
    obtain ⟨free, ungrabbed, rfl⟩ := steal?_eq_some_iff.mp goes
    refine ⟨?_, ?_, numbered⟩
    · simpa [ungrabbed] using grabs
    · simp [free] at holds ⊢
      exact holds
  | arrive =>
    refine ⟨?_, ?_, ?_⟩
    · simp only [arrived, List.countP_append]
      exact grabs
    · simp only [arrived, List.countP_append]
      exact holds
    · intro x mem
      simp only [arrived, List.mem_append, List.mem_singleton] at mem ⊢
      rcases mem with mem | rfl
      · obtain ⟨pos, le⟩ := numbered x mem
        exact ⟨pos, by omega⟩
      · simp
  | stint here goes => exact kept.stint here (Stint.goes_of_step? goes)

theorem path (kept : Kept c) (path : Path c as d) : Kept d := by
  induction path with
  | nil => exact kept
  | cons step _ ih => exact ih (kept.step step)

/-- While a stealer that has announced itself is not through, nobody announces. -/
theorem unannounced (kept : Kept c) {x : Nat × Stint} (mem : x ∈ c.stealers) (announced : x.2.hasAnnounced = true) :
    ¬ Step c (.stint n (.stealing .announce)) d := by
  intro st
  cases st with
  | @stint before after _ _ l rest here goes =>
    have grabbed : x.2.grabs = true := by
      cases stage : x.2 with
      | leaving => rw [stage] at announced; cases announced
      | stealing st =>
        rw [stage] at announced
        cases st with
        | grab | announce => cases announced
        | take | clear | ungrab => rfl
    have elsewhere : 0 < (before ++ after).countP (·.2.grabs) := by
      rw [List.countP_pos_iff]
      refine ⟨x, ?_, grabbed⟩
      rw [here, List.mem_append, List.mem_cons] at mem
      rcases mem with early | rfl | late
      · exact List.mem_append_left after early
      · cases announced
      · exact List.mem_append_right before late
    have two : (before ++ after).countP (·.2.grabs) + 1 = c.stealers.countP (·.2.grabs) := by
      rw [here, List.countP_append, List.countP_append, List.countP_cons_of_pos rfl]
      omega
    have one := kept.grabs
    split at one <;> omega

end Kept

/-! ## The last announcement -/

def Covered (c : Contest) : Prop := (∃ x ∈ c.stealers, x.2.isDue = true) ∨ c.lock.pipe = .empty

theorem Covered.step (covered : Covered c) (st : Step c a d) (silent : a ≠ .interrupt) : Covered d := by
  have pipe := st.pipe
  cases st with
  | interrupt => exact absurd rfl silent
  | drain => exact .inr pipe
  | steal => exact .inr pipe
  | arrive => exact .inl ⟨(c.issued + 1, .stealing .grab), by simp [arrived], rfl⟩
  | acquire goes =>
    obtain ⟨-, rfl⟩ := acquire?_eq_some_iff.mp goes
    exact covered
  | release =>
    split
    · exact covered
    · exact covered
  | yield goes =>
    obtain ⟨-, rfl⟩ := yield?_eq_some_iff.mp goes
    exact covered
  | @stint before after n s l rest here goes =>
    -- what another stealer has still to do is not changed by this step
    have others {x : Nat × Stint} (mem : x ∈ c.stealers) (due : x.2.isDue = true) (apart : x ≠ (n, s)) :
        Covered { c with lock := l, stealers := before ++ ((rest.map (n, ·)).toList ++ after) } := by
      rw [here, List.mem_append, List.mem_cons] at mem
      refine .inl ⟨x, ?_, due⟩
      simp only [List.mem_append]
      rcases mem with early | same | late
      · exact .inl early
      · exact absurd same apart
      · exact .inr (.inr late)
    have own {s' : Stint} (goesOn : rest = some s') (due : s'.isDue = true) :
        Covered { c with lock := l, stealers := before ++ ((rest.map (n, ·)).toList ++ after) } := by
      refine .inl ⟨(n, s'), ?_, due⟩
      simp [goesOn]
    cases Stint.goes_of_step? goes with
    | grabs => exact own rfl rfl
    | announces => exact own rfl rfl
    | takes => exact own rfl rfl
    | clears => exact .inr pipe
    | ungrabs | leaves =>
      rcases covered with ⟨x, mem, due⟩ | empty
      · refine others mem due ?_
        rintro rfl
        cases due
      · exact .inr (pipe.trans empty)

theorem Covered.path (covered : Covered c) (path : Path c as d) (silent : .interrupt ∉ as) : Covered d := by
  induction path with
  | nil => exact covered
  | cons step _ ih =>
    rw [List.mem_cons, not_or] at silent
    exact ih (covered.step step (Ne.symm silent.1)) silent.2

/-! ## Everyone comes through -/

def Act.isStint : Act → Bool
  | .stint .. => true
  | _ => false

/-- When all stealers are through, the pipe is empty. -/
theorem Covered.pipe_eq_empty (covered : Covered c) (path : Path c as d) (own : ∀ a ∈ as, a.isStint = true)
    (nobody : d.stealers = []) : d.lock.pipe = .empty := by
  have silent : .interrupt ∉ as := by
    intro mem
    cases own _ mem
  rcases covered.path path silent with ⟨x, mem, -⟩ | empty
  · rw [nobody] at mem
    cases mem
  · exact empty

def stepsLeft (c : Contest) : Nat := (c.stealers.map (·.2.stepsLeft)).sum

theorem stepsLeft_le (c : Contest) : c.stepsLeft ≤ 6 * c.stealers.length := by
  unfold stepsLeft
  induction c.stealers with
  | nil => exact Nat.le_refl 0
  | cons x xs ih =>
    have six : x.2.stepsLeft ≤ 6 := by
      unfold Stint.stepsLeft
      split <;> decide
    simp only [List.map_cons, List.sum_cons, List.length_cons]
    omega

theorem Step.stepsLeft_lt (st : Step c a d) (own : a.isStint = true) : d.stepsLeft < c.stepsLeft := by
  cases st with
  | @stint before after n s l rest here goes =>
    unfold stepsLeft
    rw [here]
    simp only [List.map_append, List.map_cons, List.sum_append, List.sum_cons]
    cases Stint.goes_of_step? goes <;> simp [Stint.stepsLeft]
  | _ => cases own

theorem Path.length_le (path : Path c as d) (own : ∀ a ∈ as, a.isStint = true) :
    as.length + d.stepsLeft ≤ c.stepsLeft := by
  induction path with
  | nil => simp
  | cons step _ ih =>
    rw [List.forall_mem_cons] at own
    have first := step.stepsLeft_lt own.1
    have rest := ih own.2
    rw [List.length_cons]
    omega

theorem Step.unheld (kept : Kept c) (st : Step c a d) (own : a.isStint = true) (free : c.lock.reader ≠ some holder) :
    d.lock.reader ≠ some holder := by
  cases st with
  | @stint before after n s l rest here goes =>
    have mem : (n, s) ∈ c.stealers := by rw [here]; simp
    have other := kept.number_ne_zero mem
    cases Stint.goes_of_step? goes with
    | takes => simp [holder, other]
    | leaves => simp [SoftLock.release]
    | grabs | announces | clears | ungrabs => exact free
  | _ => cases own

theorem Path.unheld (kept : Kept c) (path : Path c as d) (own : ∀ a ∈ as, a.isStint = true)
    (free : c.lock.reader ≠ some holder) : d.lock.reader ≠ some holder := by
  induction path with
  | nil => exact free
  | cons step _ ih =>
    rw [List.forall_mem_cons] at own
    exact ih (kept.step step) own.2 (step.unheld kept own.1 free)

/-- A stealer can step as long as there is one, unless the holder is there. -/
theorem Kept.goes_on (kept : Kept c) (free : c.lock.reader ≠ some holder) (present : c.stealers ≠ []) :
    ∃ a d, Step c a d ∧ a.isStint = true := by
  have of_goes {x : Nat × Stint} (mem : x ∈ c.stealers) {l : SoftLock} {rest : Option Stint}
      (goes : x.2.Goes (.client x.1) c.lock l rest) : ∃ a d, Step c a d ∧ a.isStint = true := by
    obtain ⟨before, after, here⟩ := List.append_of_mem mem
    exact ⟨_, _, .stint here goes.step?, rfl⟩
  by_cases reading : ∃ x ∈ c.stealers, x.2.holds = true
  · obtain ⟨⟨n, s⟩, mem, holds⟩ := reading
    cases s with
    | leaving => exact of_goes mem .leaves
    | stealing st =>
      cases st with
      | clear => exact of_goes mem .clears
      | ungrab => exact of_goes mem .ungrabs
      | grab | announce | take => cases holds
  · have unread := kept.reader_eq_none reading free
    by_cases grabbing : ∃ x ∈ c.stealers, x.2.grabs = true
    · obtain ⟨⟨n, s⟩, mem, grabs⟩ := grabbing
      cases s with
      | leaving => cases grabs
      | stealing st =>
        cases st with
        | announce => exact of_goes mem .announces
        | take => exact of_goes mem (.takes unread)
        | clear => exact of_goes mem .clears
        | ungrab => exact of_goes mem .ungrabs
        | grab => cases grabs
    · have ungrabbed := kept.grabber_eq_none grabbing
      obtain ⟨⟨n, s⟩, mem⟩ := List.exists_mem_of_ne_nil _ present
      cases s with
      | leaving => exact of_goes mem .leaves
      | stealing st =>
        cases st with
        | grab => exact of_goes mem (.grabs ungrabbed)
        | announce | take | clear | ungrab => exact absurd ⟨_, mem, rfl⟩ grabbing

end

end Contest

end HidGate
