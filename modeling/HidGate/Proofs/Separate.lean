import HidGate.Proofs.Exclusion

/-!
# Endpoints of two parts

An endpoint may keep its input apart from its features and its output. Then polls and reads go by the input alone,
requests and writes by the rest, and none of them touches the other part. The endpoint in memory is of this kind.
-/

namespace HidGate

/-! ## The parts -/

/-- Polls and reads see the input and change nothing else, requests and writes see the output and change nothing
else. What befalls the endpoint does to each part what that part alone decides, and takes back nothing that is
there to be read. -/
class Separate (σ : Type) [Endpoint σ] [Surroundings σ] where
  Input : Type
  Output : Type
  input : σ → Input
  output : σ → Output
  /-- The incident may change the output. -/
  isSetting : Surroundings.Incident σ → Bool
  pollFault_congr {x x' : σ} : input x = input x' →
    (Endpoint.pollFault? x).map (Prod.map id input) = (Endpoint.pollFault? x').map (Prod.map id input)
  fetch_congr {x x' : σ} : input x = input x' →
    (Endpoint.fetch? x).map (Prod.map id input) = (Endpoint.fetch? x').map (Prod.map id input)
  output_of_pollFault {x y : σ} {n : Int} : Endpoint.pollFault? x = some (n, y) → output y = output x
  output_of_fetch {x y : σ} {answer : Except SystemError Reading} : Endpoint.fetch? x = some (answer, y) →
    output y = output x
  write_congr (report : Bytes) {x x' : σ} : output x = output x' →
    (Endpoint.write report x).map id output = (Endpoint.write report x').map id output
  get_congr (scratch : Bytes) {x x' : σ} : output x = output x' →
    (Endpoint.getFeature scratch x).map id output = (Endpoint.getFeature scratch x').map id output
  set_congr (report : Bytes) {x x' : σ} : output x = output x' →
    (Endpoint.setFeature report x).map id output = (Endpoint.setFeature report x').map id output
  input_of_write (report : Bytes) (x : σ) : input (Endpoint.write report x).2 = input x
  input_of_get (scratch : Bytes) (x : σ) : input (Endpoint.getFeature scratch x).2 = input x
  input_of_set (report : Bytes) (x : σ) : input (Endpoint.setFeature report x).2 = input x
  input_of_befall (i : Surroundings.Incident σ) {x x' : σ} : input x = input x' →
    input (Surroundings.befall i x) = input (Surroundings.befall i x')
  output_of_befall (i : Surroundings.Incident σ) {x x' : σ} : output x = output x' →
    output (Surroundings.befall i x) = output (Surroundings.befall i x')
  output_of_arrival {i : Surroundings.Incident σ} (x : σ) : isSetting i = false →
    output (Surroundings.befall i x) = output x
  ready_of_befall (i : Surroundings.Incident σ) {x : σ} : Endpoint.ready x = true →
    Endpoint.ready (Surroundings.befall i x) = true

namespace Bench

theorem ready_iff {b : Bench} :
    Endpoint.ready b = true ↔ ∃ x rest answer, b.queue = x :: rest ∧ Item.answer? x = some answer := by
  constructor
  · exact front_of_ready
  · rintro ⟨x, rest, answer, hq, hx⟩
    have hf : Endpoint.fetch? b = some (answer, b.advance x rest) :=
      fetch?_eq_some.mpr ⟨x, rest, hq, hx, rfl⟩
    rw [Endpoint.ready, hf]; rfl

theorem Moved.ready {A : List Item} {b b' : Bench} (h : Moved [] A b b') (hb : Endpoint.ready b = true) :
    Endpoint.ready b' = true := by
  obtain ⟨x, rest, answer, hq, hx⟩ := ready_iff.mp hb
  refine ready_iff.mpr ⟨x, rest ++ A, answer, ?_, hx⟩
  have := h.queue
  rwa [List.nil_append, hq] at this

def outward (b : Bench) : Bench := { b with queue := [], taken := [] }

instance : Separate Bench where
  Input := List Item × List Item
  Output := Bench
  input b := (b.queue, b.taken)
  output := outward
  isSetting
    | .arrive _ => false
    | .answer _ | .accept _ => true
  pollFault_congr {x x'} h := by
    cases x; cases x'; cases h
    simp only [Endpoint.pollFault?, pollFault?]
    split <;> rfl
  fetch_congr {x x'} h := by
    cases x; cases x'; cases h
    simp only [Endpoint.fetch?, fetch?]
    split <;> rfl
  output_of_pollFault h := by
    obtain ⟨rest, -, rfl⟩ := pollFault?_eq_some.mp h
    rfl
  output_of_fetch h := by
    obtain ⟨x, rest, -, -, rfl⟩ := fetch?_eq_some.mp h
    rfl
  write_congr report {x x'} h := by
    cases x; cases x'; cases h
    simp only [Endpoint.write, write]
    split <;> rfl
  get_congr scratch {x x'} h := by cases x; cases x'; cases h; rfl
  set_congr report {x x'} h := by
    cases x; cases x'; cases h
    simp only [Endpoint.setFeature, setFeature]
    split <;> rfl
  input_of_write report x := by
    simp only [Endpoint.write, write]
    split <;> rfl
  input_of_get _ _ := rfl
  input_of_set report x := by
    simp only [Endpoint.setFeature, setFeature]
    split <;> rfl
  input_of_befall i x x' h := by
    cases x; cases x'; cases h
    cases i <;> rfl
  output_of_befall i x x' h := by
    cases x; cases x'; cases h
    cases i <;> rfl
  output_of_arrival {i} x h := by
    cases i with
    | arrive => rfl
    | _ => cases h
  ready_of_befall i x h := (Moved.befall i x).ready h

end Bench

variable {σ : Type} [Endpoint σ] [Surroundings σ] [Separate σ]

open Separate

/-! ## Requests and writes -/

theorem Touch.input_eq {x y : σ} (h : Touch x y) : input y = input x := by
  cases h with
  | keep => rfl
  | write report => exact input_of_write report x
  | get scratch => exact input_of_get scratch x
  | set report => exact input_of_set report x

theorem Request.perform_output (who who' : Party) (r : Request) {g g' : Gate σ}
    (h : output g.endpoint = output g'.endpoint) :
    (r.perform who g).1 = (r.perform who' g').1 ∧
      output (r.perform who g).2.endpoint = output (r.perform who' g').2.endpoint := by
  cases hr : r.direction with
  | get =>
    obtain ⟨answer, rest⟩ := Prod.ext_iff.mp (get_congr r.scratch h)
    simp only [perform, hr, get]
    generalize Endpoint.getFeature r.scratch g.endpoint = p at answer rest ⊢
    generalize Endpoint.getFeature r.scratch g'.endpoint = p' at answer rest ⊢
    obtain ⟨a, x⟩ := p
    obtain ⟨a', x'⟩ := p'
    obtain rfl : a = a' := answer
    cases a with
    | error => exact ⟨rfl, rest⟩
    | ok => exact ⟨rfl, rest⟩
  | set =>
    obtain ⟨answer, rest⟩ := Prod.ext_iff.mp (set_congr (r.buffer.set 0 r.id) h)
    simp only [perform, hr, set, Gate.note_endpoint]
    generalize Endpoint.setFeature (r.buffer.set 0 r.id) g.endpoint = p at answer rest ⊢
    generalize Endpoint.setFeature (r.buffer.set 0 r.id) g'.endpoint = p' at answer rest ⊢
    obtain ⟨⟨a, data⟩, x⟩ := p
    obtain ⟨a', x'⟩ := p'
    obtain rfl : (a, data) = a' := answer
    cases a with
    | error => exact ⟨rfl, rest⟩
    | ok => exact ⟨rfl, rest⟩

theorem Gate.writeReport_output (who who' : Party) (report : Bytes) {g g' : Gate σ}
    (h : output g.endpoint = output g'.endpoint) :
    (g.writeReport who report).1 = (g'.writeReport who' report).1 ∧
      output (g.writeReport who report).2.endpoint = output (g'.writeReport who' report).2.endpoint := by
  obtain ⟨answer, rest⟩ := Prod.ext_iff.mp (write_congr report h)
  simp only [writeReport]
  generalize Endpoint.write report g.endpoint = p at answer rest ⊢
  generalize Endpoint.write report g'.endpoint = p' at answer rest ⊢
  obtain ⟨a, x⟩ := p
  obtain ⟨a', x'⟩ := p'
  obtain rfl : a = a' := answer
  cases a with
  | error => exact ⟨rfl, rest⟩
  | ok n =>
    dsimp only
    split <;> exact ⟨rfl, rest⟩

/-! ## Reads -/

theorem ReadStep.output_eq {who : Party} {propagate : Bool} {st : ReadStage} {g g' : Gate σ} {next : ReadNext}
    (h : ReadStep who propagate g st next g') : output g'.endpoint = output g.endpoint := by
  cases h with
  | pollFault fault => exact output_of_pollFault fault
  | fault fetch | empty fetch | overlong fetch | report fetch => exact output_of_fetch fetch
  | wake | ready | drain => rfl
  | accepted | crashed => exact congrArg output (Gate.hand_endpoint ..)
  | rejected => exact congrArg output ((Gate.note_endpoint ..).trans (Gate.hand_endpoint ..))

theorem Duty.output_eq {wanted : Bool} {d : Duty} {g g' : Gate σ} {w : Worker}
    (h : d.step? wanted g = some (w, g')) : output g'.endpoint = output g.endpoint := by
  cases dutyStep h with
  | @reads st next g₁ step =>
    rw [(ofRead_stage true next g₁).2.2.1]
    exact step.output_eq
  | _ => rfl

theorem pollFault_eq_none {x x' : σ} (h : input x = input x') (sound : Endpoint.pollFault? x = none) :
    Endpoint.pollFault? x' = none := by
  have := pollFault_congr h
  rwa [sound, Option.map_none, eq_comm, Option.map_eq_none_iff] at this

theorem pollFault_eq_some {x x' y : σ} {n : Int} (h : input x = input x')
    (fault : Endpoint.pollFault? x = some (n, y)) :
    ∃ y', Endpoint.pollFault? x' = some (n, y') ∧ input y = input y' := by
  have := pollFault_congr h
  rw [fault, Option.map_some, eq_comm, Option.map_eq_some_iff] at this
  obtain ⟨⟨n', y'⟩, fault', same⟩ := this
  obtain ⟨rfl, same⟩ := Prod.ext_iff.mp same
  exact ⟨y', fault', same.symm⟩

theorem fetch_eq_some {x x' y : σ} {answer : Except SystemError Reading} (h : input x = input x')
    (fetch : Endpoint.fetch? x = some (answer, y)) :
    ∃ y', Endpoint.fetch? x' = some (answer, y') ∧ input y = input y' := by
  have := fetch_congr h
  rw [fetch, Option.map_some, eq_comm, Option.map_eq_some_iff] at this
  obtain ⟨⟨answer', y'⟩, fetch', same⟩ := this
  obtain ⟨rfl, same⟩ := Prod.ext_iff.mp same
  exact ⟨y', fetch', same.symm⟩

theorem ready_congr {x x' : σ} (h : input x = input x') : Endpoint.ready x = Endpoint.ready x' := by
  have := congrArg Option.isSome (fetch_congr h)
  rwa [Option.isSome_map, Option.isSome_map] at this

end HidGate
