import HidGate.Proofs.Rivals

/-!
# Operations on a contested lock

Each operation is a few steps of its own, and then the stealers run until each has left or waits. After it the first
stealer has announced itself and waits for the read path, and the others wait for the first. So the pipe can be followed
through every sequence of operations, whatever the number of stealers.
-/

namespace HidGate

theorem Pipe.notifyMany_not_empty {n : Nat} (pos : 0 < n) (p : Pipe) : (p.notifyMany n).isEmpty = false := by
  have go : ∀ n (p : Pipe), p.isEmpty = false → (p.notifyMany n).isEmpty = false := by
    intro n
    induction n with
    | zero => exact fun _ before => before
    | succ n ih => exact fun p _ => ih p.notify p.notify_not_empty
  cases n with
  | zero => cases pos
  | succ n => exact go n p.notify p.notify_not_empty

namespace Contest

inductive Op
  | interrupt (n : Nat)
  | drain
  | acquire
  | steal
  | yield
  | spawn
  | release
  deriving DecidableEq

def perform? (c : Contest) : Op → Option Contest
  | .interrupt n => some (c.interrupt n)
  | .drain => some c.drain.2
  | .acquire => c.acquire?
  | .steal => c.steal?
  | .yield => c.yield?
  | .spawn => some c.spawn.2
  | .release => some c.release.2

def Op.own : Op → List Act
  | .interrupt n => List.replicate n .interrupt
  | .drain => [.drain]
  | .acquire => [.acquire]
  | .steal => [.steal]
  | .yield => [.yield]
  | .spawn => [.arrive]
  | .release => [.release]

inductive Made : List Op → List Act → Prop
  | nil : Made [] []
  | cons {op : Op} {ops : List Op} {stints acts : List Act} (between : ∀ a ∈ stints, a.isStint = true)
      (rest : Made ops acts) : Made (op :: ops) (op.own ++ stints ++ acts)

section
variable {c d : Contest} {a : Act} {acts : List Act}

/-! ## Settling -/

theorem turn?_eq_some {l l' : SoftLock} {ss ss' : List (Nat × Stint)} (h : turn? l ss = some (l', ss')) :
    ∃ before n s after rest, ss = before ++ (n, s) :: after ∧ s.step? (.client n) l = some (l', rest) ∧
      ss' = before ++ ((rest.map (n, ·)).toList ++ after) := by
  induction ss generalizing ss' with
  | nil => cases h
  | cons x ss ih =>
    obtain ⟨n, s⟩ := x
    unfold turn? at h
    split at h
    · rename_i l₁ s' goes
      cases h
      exact ⟨[], n, s, ss, some s', rfl, goes, rfl⟩
    · rename_i l₁ goes
      cases h
      exact ⟨[], n, s, ss, none, rfl, goes, rfl⟩
    · simp only [Option.map_eq_some_iff] at h
      obtain ⟨⟨l₁, ss₁⟩, turn, same⟩ := h
      cases same
      obtain ⟨before, m, t, after, rest, rfl, goes, rfl⟩ := ih turn
      exact ⟨(n, s) :: before, m, t, after, rest, rfl, goes, rfl⟩

theorem turn?_eq_none {l : SoftLock} {ss : List (Nat × Stint)} :
    turn? l ss = none ↔ ∀ x ∈ ss, x.2.step? (.client x.1) l = none := by
  induction ss with
  | nil => simp [turn?]
  | cons x ss ih =>
    obtain ⟨n, s⟩ := x
    rw [List.forall_mem_cons, ← ih]
    simp only [turn?]
    split
    · rename_i goes
      simp [goes]
    · rename_i goes
      simp [goes]
    · rename_i stuck
      simp [stuck]

theorem settleFor_path (fuel : Nat) (c : Contest) : ∃ acts, Path c acts (settleFor fuel c) ∧
    (∀ a ∈ acts, a.isStint = true) ∧
    (turn? (settleFor fuel c).lock (settleFor fuel c).stealers = none ∨ acts.length = fuel) := by
  induction fuel generalizing c with
  | zero => exact ⟨[], .nil c, nofun, .inr rfl⟩
  | succ fuel ih =>
    unfold settleFor
    split
    · rename_i l ss turn
      obtain ⟨before, n, s, after, rest, here, goes, rfl⟩ := turn?_eq_some turn
      obtain ⟨acts, path, own, done⟩ :=
        ih { c with lock := l, stealers := before ++ ((rest.map (n, ·)).toList ++ after) }
      refine ⟨.stint n s :: acts, .cons (.stint here goes) path, ?_, ?_⟩
      · rw [List.forall_mem_cons]
        exact ⟨rfl, own⟩
      · rw [List.length_cons, Nat.add_right_cancel_iff]
        exact done
    · rename_i stuck
      exact ⟨[], .nil c, nofun, .inl stuck⟩

theorem settle_path (c : Contest) : ∃ acts, Path c acts (settle c) ∧ (∀ a ∈ acts, a.isStint = true) ∧
    ∀ x ∈ (settle c).stealers, x.2.step? (.client x.1) (settle c).lock = none := by
  obtain ⟨acts, path, own, done⟩ := settleFor_path (6 * c.stealers.length) c
  refine ⟨acts, path, own, ?_⟩
  rcases done with stuck | spent
  · exact turn?_eq_none.mp stuck
  · -- all steps that there were have been made
    have within := path.length_le own
    have all := stepsLeft_le c
    intro x mem
    have one_left : 0 < x.2.stepsLeft := by
      unfold Stint.stepsLeft
      split <;> decide
    have some_left : 0 < (settle c).stepsLeft :=
      List.sum_pos_iff_exists_pos_nat.mpr ⟨_, List.mem_map_of_mem mem, one_left⟩
    unfold settle at some_left
    omega

theorem Kept.stealers_settle (kept : Kept c) (free : c.lock.reader ≠ some holder) : (settle c).stealers = [] := by
  obtain ⟨acts, path, own, stuck⟩ := settle_path c
  apply Classical.byContradiction
  intro present
  obtain ⟨a, d, step, isStint⟩ := (kept.path path).goes_on (path.unheld kept own free) present
  cases step with
  | @stint before after n s l rest here goes =>
    have waits := stuck (n, s) (by rw [here]; simp)
    rw [waits] at goes
    cases goes
  | _ => cases isStint

/-! ## At rest -/

/-- Nobody runs: the first stealer waits for the read path, and the others wait for the first. -/
inductive Rests (c : Contest) : Prop
  | alone (nobody : c.stealers = []) (ungrabbed : c.lock.grabber = none)
  | queue {n : Nat} {later : List (Nat × Stint)} (held : c.lock.reader = some holder)
      (here : c.stealers = (n, .stealing .take) :: later) (grabbed : c.lock.grabber = some (.client n))
      (waiting : ∀ x ∈ later, x.2 = .stealing .grab)

theorem Kept.ungrabbed (kept : Kept c) (nobody : c.stealers = []) : c.lock.grabber = none := by
  apply kept.grabber_eq_none
  simp [nobody]

theorem Kept.reader_eq_holder (kept : Kept c) (nobody : c.stealers = []) (taken : c.lock.reader ≠ none) :
    c.lock.reader = some holder := by
  apply Classical.byContradiction
  intro other
  exact taken (kept.reader_eq_none (by simp [nobody]) other)

theorem settle_eq_self (waits : ∀ x ∈ c.stealers, x.2.step? (.client x.1) c.lock = none) : settle c = c := by
  have stuck := turn?_eq_none.mpr waits
  unfold settle
  cases 6 * c.stealers.length with
  | zero => rfl
  | succ fuel => simp only [settleFor, stuck]

theorem Rests.waits (rests : Rests c) {x : Nat × Stint} (mem : x ∈ c.stealers) :
    x.2.step? (.client x.1) c.lock = none := by
  cases rests with
  | alone nobody =>
    rw [nobody] at mem
    cases mem
  | queue held here grabbed waiting =>
    rw [here, List.mem_cons] at mem
    rcases mem with rfl | late
    · simp [Stint.step?, Steal.step?, SoftLock.acquire?, held]
    · rw [waiting x late]
      simp [Stint.step?, Steal.step?, SoftLock.grab?, grabbed]

theorem Rests.settle_eq (rests : Rests c) : settle c = c := settle_eq_self fun _ mem => rests.waits mem

/-- The first stealer to find the read path held announces itself and waits. -/
theorem settle_first {n : Nat} (alone : c.stealers = [(n, .stealing .grab)]) (ungrabbed : c.lock.grabber = none)
    (held : c.lock.reader = some holder) :
    settle c = { c with
      lock := ⟨some holder, some (.client n), c.lock.pipe.notify⟩, stealers := [(n, .stealing .take)] } := by
  obtain ⟨⟨reader, grabber, pipe⟩, stealers, issued⟩ := c
  cases alone
  cases ungrabbed
  cases held
  rfl

theorem Rests.mono {l : SoftLock} (rests : Rests c) (reader : l.reader = c.lock.reader)
    (grabber : l.grabber = c.lock.grabber) : Rests { c with lock := l } := by
  cases rests with
  | alone nobody ungrabbed => exact .alone nobody (grabber.trans ungrabbed)
  | queue held here grabbed waiting => exact .queue (reader.trans held) here (grabber.trans grabbed) waiting

/-! ## One operation -/

theorem release_eq (c : Contest) : c.release.2 =
    settle { c with lock := if c.lock.reader == some holder then c.lock.release else c.lock } := by
  unfold release
  dsimp only
  split <;> rfl

theorem interrupt_path (n : Nat) (c : Contest) : Path c (List.replicate n .interrupt) (c.interrupt n) := by
  induction n generalizing c with
  | zero => exact .nil c
  | succ n ih => exact .cons .interrupt (ih (c.interrupt 1))

theorem Rests.arrived (rests : Rests c) (present : c.stealers ≠ []) : Rests c.arrived := by
  cases rests with
  | alone nobody => exact absurd nobody present
  | queue held here grabbed waiting =>
    refine .queue held (by rw [Contest.arrived, here]; rfl) grabbed ?_
    intro x mem
    rcases List.mem_append.mp mem with early | new
    · exact waiting x early
    · rw [List.mem_singleton.mp new]

theorem Rests.nobody (rests : Rests c) (free : c.lock.reader ≠ some holder) : c.stealers = [] := by
  cases rests with
  | alone nobody => exact nobody
  | queue held => exact absurd held free

theorem Rests.held (rests : Rests c) (present : c.stealers ≠ []) : c.lock.reader = some holder := by
  apply Classical.byContradiction
  intro free
  exact present (rests.nobody free)

theorem Kept.arrived (kept : Kept c) : Kept c.arrived := kept.step .arrive

theorem Rests.perform {op : Op} (rests : Rests c) (kept : Kept c) (goes : c.perform? op = some d) : Rests d := by
  cases op with
  | interrupt n =>
    cases goes
    exact rests.mono rfl rfl
  | drain =>
    cases goes
    exact rests.mono rfl rfl
  | acquire =>
    obtain ⟨free, rfl⟩ := acquire?_eq_some_iff.mp goes
    have nobody := rests.nobody (by simp [free])
    exact .alone nobody (kept.ungrabbed nobody)
  | steal =>
    obtain ⟨free, ungrabbed, rfl⟩ := steal?_eq_some_iff.mp goes
    exact .alone (rests.nobody (by simp [free])) rfl
  | yield =>
    obtain ⟨-, rfl⟩ := yield?_eq_some_iff.mp goes
    exact rests
  | spawn =>
    cases goes
    change Rests (settle c.arrived)
    obtain ⟨acts, path, -, -⟩ := settle_path c.arrived
    by_cases held : c.lock.reader = some holder
    · by_cases nobody : c.stealers = []
      · have alone : c.arrived.stealers = [(c.issued + 1, .stealing .grab)] := by simp [Contest.arrived, nobody]
        rw [settle_first alone (kept.ungrabbed nobody) held]
        exact .queue rfl rfl rfl (List.forall_mem_nil _)
      · rw [(rests.arrived nobody).settle_eq]
        exact rests.arrived nobody
    · have nobody := kept.arrived.stealers_settle held
      exact .alone nobody ((kept.arrived.path path).ungrabbed nobody)
  | release =>
    cases goes
    rw [release_eq]
    have kept' := kept.step .release
    by_cases held : c.lock.reader = some holder
    · simp only [held, beq_self_eq_true, if_true] at kept' ⊢
      obtain ⟨acts, path, -, -⟩ := settle_path { c with lock := c.lock.release }
      have nobody := kept'.stealers_settle (Option.some_ne_none holder).symm
      exact .alone nobody ((kept'.path path).ungrabbed nobody)
    · have other : (c.lock.reader == some holder) = false := by simpa using held
      simp only [other, Bool.false_eq_true, if_false]
      rw [rests.settle_eq]
      exact rests

theorem perform?_path {op : Op} (goes : c.perform? op = some d) :
    ∃ stints, (∀ a ∈ stints, a.isStint = true) ∧ Path c (op.own ++ stints) d := by
  have alone {own : List Act} (path : Path c own d) :
      ∃ stints, (∀ a ∈ stints, a.isStint = true) ∧ Path c (own ++ stints) d := by
    refine ⟨[], nofun, ?_⟩
    rw [List.append_nil]
    exact path
  cases op with
  | interrupt n =>
    cases goes
    exact alone (interrupt_path n c)
  | drain =>
    cases goes
    exact alone (.single .drain)
  | acquire => exact alone (.single (.acquire goes))
  | steal => exact alone (.single (.steal goes))
  | yield => exact alone (.single (.yield goes))
  | spawn =>
    cases goes
    obtain ⟨stints, path, own, -⟩ := settle_path c.arrived
    exact ⟨stints, own, .cons .arrive path⟩
  | release =>
    cases goes
    rw [release_eq]
    obtain ⟨stints, path, own, -⟩ :=
      settle_path { c with lock := if c.lock.reader == some holder then c.lock.release else c.lock }
    exact ⟨stints, own, .cons .release path⟩

/-! ## Every sequence of operations -/

theorem run_path {ops : List Op} (kept : Kept c) (rests : Rests c) (run : ops.foldlM perform? c = some d) :
    Kept d ∧ Rests d ∧ ∃ acts, Made ops acts ∧ Path c acts d := by
  induction ops generalizing c with
  | nil =>
    cases run
    exact ⟨kept, rests, [], .nil, .nil d⟩
  | cons op ops ih =>
    rw [List.foldlM_cons, Option.bind_eq_bind, Option.bind_eq_some_iff] at run
    obtain ⟨e, goes, run⟩ := run
    obtain ⟨stints, between, path⟩ := perform?_path goes
    obtain ⟨kept', rests', acts, made, path'⟩ := ih (kept.path path) (rests.perform kept goes) run
    exact ⟨kept', rests', _, .cons between made, path.append path'⟩

end

/-- When the operations that might wait have a result, and what each operation does to the pipe. -/
structure Effects (c : Contest) : Prop where
  acquires : c.acquire?.isSome = true ↔ c.lock.reader = none
  steals : c.steal?.isSome = true ↔ c.lock.reader = none ∧ c.lock.grabber = none
  yields : c.yield?.isSome = true ↔ c.lock.grabber = none
  drain : c.drain = (c.lock.pipe.bytes, { c with lock := { c.lock with pipe := .empty } })
  interrupt : ∀ n, 0 < n → (c.interrupt n).lock.pipe.isEmpty = false
  acquire : ∀ d, c.acquire? = some d → d.lock.pipe = c.lock.pipe
  steal : ∀ d, c.steal? = some d → d.lock.pipe = .empty
  yield : ∀ d, c.yield? = some d → d.lock.pipe = c.lock.pipe
  spawn_free : c.lock.reader = none → c.spawn.1 = false ∧ c.spawn.2.lock.pipe = .empty
  spawn_first : c.lock.reader ≠ none → c.stealers = [] → c.spawn.1 = true ∧
    c.spawn.2.lock.pipe = c.lock.pipe.notify ∧ c.spawn.2.lock.pipe.isEmpty = false
  spawn_later : c.stealers ≠ [] → c.spawn.1 = true ∧ c.spawn.2.lock.pipe = c.lock.pipe
  release_waiting : c.stealers ≠ [] → c.release.1 = true ∧ c.release.2.stealers = [] ∧ c.release.2.lock.pipe = .empty
  release_alone : c.stealers = [] → c.release.2.lock.pipe = c.lock.pipe

/-- What holds in whatever order the stealers run, and whatever else is done meanwhile. -/
structure InAnyOrder (c : Contest) : Prop where
  notified : ∀ acts d n e, Path c acts d → Step d .interrupt e ∨ Step d (.stint n (.stealing .announce)) e →
    e.lock.pipe.isEmpty = false
  one_announcement : ∀ acts d, Path c acts d → ∀ x ∈ d.stealers, x.2.hasAnnounced = true →
    ∀ n e, ¬ Step d (.stint n (.stealing .announce)) e
  release_waiting : c.stealers ≠ [] → ∀ acts d, Path { c with lock := c.lock.release } acts d →
    (∀ a ∈ acts, a.isStint = true) → acts.length ≤ 6 * c.stealers.length ∧
      (d.stealers = [] → d.lock.pipe = .empty) ∧ (d.stealers ≠ [] → ∃ a e, Step d a e ∧ a.isStint = true)

section
variable {c d : Contest}

theorem Rests.covered (rests : Rests c) (present : c.stealers ≠ []) : Covered c := by
  cases rests with
  | alone nobody => exact absurd nobody present
  | queue _ here => exact .inl ⟨_, by rw [here]; exact List.mem_cons_self, rfl⟩

theorem Kept.pipe_settle (kept : Kept c) (covered : Covered c) (free : c.lock.reader ≠ some holder) :
    (settle c).lock.pipe = .empty := by
  obtain ⟨acts, path, own, -⟩ := settle_path c
  exact covered.pipe_eq_empty path own (kept.stealers_settle free)

theorem effects (kept : Kept c) (rests : Rests c) : Effects c where
  acquires := by simp [Option.isSome_iff_exists, acquire?_eq_some_iff]
  steals := by simp [Option.isSome_iff_exists, steal?_eq_some_iff]
  yields := by simp [Option.isSome_iff_exists, yield?_eq_some_iff]
  drain := by
    unfold drain SoftLock.drained
    rw [Pipe.drain_eq]
  interrupt n pos := Pipe.notifyMany_not_empty pos c.lock.pipe
  acquire d goes := by
    obtain ⟨-, rfl⟩ := acquire?_eq_some_iff.mp goes
    rfl
  steal d goes := by
    obtain ⟨-, -, rfl⟩ := steal?_eq_some_iff.mp goes
    rfl
  yield d goes := by
    obtain ⟨-, rfl⟩ := yield?_eq_some_iff.mp goes
    rfl
  spawn_free free := by
    have other : c.arrived.lock.reader ≠ some holder := by
      change c.lock.reader ≠ some holder
      simp [free]
    have covered : Covered c.arrived := .inl ⟨(c.issued + 1, .stealing .grab), by simp [arrived], rfl⟩
    change (settle c.arrived).stealers.any _ = false ∧ (settle c.arrived).lock.pipe = .empty
    rw [kept.arrived.stealers_settle other]
    exact ⟨rfl, kept.arrived.pipe_settle covered other⟩
  spawn_first taken nobody := by
    have alone : c.arrived.stealers = [(c.issued + 1, .stealing .grab)] := by simp [arrived, nobody]
    change (settle c.arrived).stealers.any _ = true ∧ (settle c.arrived).lock.pipe = _ ∧
      (settle c.arrived).lock.pipe.isEmpty = false
    rw [settle_first alone (kept.ungrabbed nobody) (kept.reader_eq_holder nobody taken)]
    exact ⟨by simp, rfl, c.lock.pipe.notify_not_empty⟩
  spawn_later present := by
    change (settle c.arrived).stealers.any _ = true ∧ (settle c.arrived).lock.pipe = _
    rw [(rests.arrived present).settle_eq]
    exact ⟨by simp [arrived], rfl⟩
  release_waiting present := by
    have held := rests.held present
    have kept' := kept.step .release
    rw [release_eq]
    simp only [held, beq_self_eq_true, if_true] at kept' ⊢
    have unheld := (Option.some_ne_none holder).symm
    refine ⟨?_, kept'.stealers_settle unheld, kept'.pipe_settle ?_ unheld⟩
    · unfold release
      simp [held]
    · have covered := (rests.covered present).step .release Act.noConfusion
      simpa only [held, beq_self_eq_true, if_true] using covered
  release_alone nobody := by
    rw [release_eq]
    have waits : ∀ x ∈ c.stealers, x.2.step? (.client x.1) c.lock = none := by
      intro x mem
      rw [nobody] at mem
      cases mem
    rw [settle_eq_self]
    · dsimp only
      split <;> rfl
    · rw [nobody]
      exact List.forall_mem_nil _

theorem inAnyOrder (kept : Kept c) (rests : Rests c) : InAnyOrder c where
  notified acts d n e _ st := by
    have pipe : e.lock.pipe = d.lock.pipe.notify := by
      rcases st with st | st
      · exact st.pipe
      · exact st.pipe
    rw [pipe]
    exact d.lock.pipe.notify_not_empty
  one_announcement acts d path x mem announced n e := (kept.path path).unannounced mem announced
  release_waiting present acts d path own := by
    have held := rests.held present
    have kept' := kept.step .release
    have covered := (rests.covered present).step .release Act.noConfusion
    simp only [held, beq_self_eq_true, if_true] at kept' covered
    refine ⟨?_, ?_, ?_⟩
    · have within := path.length_le own
      have all := stepsLeft_le { c with lock := c.lock.release }
      dsimp only at all
      omega
    · exact covered.pipe_eq_empty path own
    · exact (kept'.path path).goes_on (path.unheld kept' own nofun)

/-- The bytes in the pipe are those put in since it was last emptied, by interrupts and by announcements, as far as they
fit, after every sequence of operations. -/
theorem pipe_accounted {ops : List Op} (run : ops.foldlM perform? start = some c) :
    (∃ acts, Made ops acts ∧ Path start acts c) ∧
    (∀ acts, Path start acts c →
      c.lock.pipe.bytes = min Pipe.capacity (tally 0 acts) ∧ c.drain.1 = min Pipe.capacity (tally 0 acts)) ∧
    Effects c ∧ InAnyOrder c := by
  obtain ⟨kept, rests, acts, made, path⟩ := run_path .start (.alone rfl rfl) run
  refine ⟨⟨acts, made, path⟩, ?_, effects kept rests, inAnyOrder kept rests⟩
  intro acts path
  have bytes := path.bytes (k := 0) rfl
  refine ⟨bytes, ?_⟩
  rw [(effects kept rests).drain]
  exact bytes

/-- Two stealers come up behind the holder, before the pipe is emptied and after. Both wait until it is released. -/
theorem pipe_accounted_of_queue :
    let ops : List Op := [.acquire, .interrupt 128, .spawn, .drain, .spawn, .release]
    let c : Contest := ⟨⟨none, none, .empty⟩, [], 2⟩
    ((ops.take 2).foldlM perform? start).map (·.spawn.1) = some true ∧
      ((ops.take 4).foldlM perform? start).map (·.spawn.1) = some true ∧
      ((ops.take 5).foldlM perform? start).map (·.stealers.map Prod.fst) = some [1, 2] ∧
      ops.foldlM perform? start = some c ∧ c.acquire?.isSome = true ∧
      ∃ acts, Made ops acts ∧ Path start acts c := by
  intro ops c
  have run : ops.foldlM perform? start = some c := by decide +kernel
  obtain ⟨made, -, does, -⟩ := pipe_accounted run
  exact ⟨by decide +kernel, by decide +kernel, by decide +kernel, run, does.acquires.mpr rfl, made⟩

end

end Contest

end HidGate
