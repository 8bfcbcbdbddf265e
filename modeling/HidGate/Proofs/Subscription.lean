import HidGate.Gate.Exchange
import Mathlib.Algebra.Ring.Nat

/-!
# What a channel is to one reader

All readers share one ring, which keeps the last items only. To each of them it is a list of its own: the items
sent since it subscribed, with the place that it has come to. Other readers do not show in it, and an item that
the ring has lost is counted as missed.
-/

namespace HidGate

/-! ## Deeds -/

inductive Channel.Deed (ι α : Type)
  | subscribe (r : ι)
  | unsubscribe (r : ι)
  | publish (a : α)
  | receive (r : ι)
  | close

namespace Channel.Deed

variable {ι α : Type}

def reader? : Deed ι α → Option ι
  | .subscribe r | .unsubscribe r | .receive r => some r
  | _ => none

def isClose : Deed ι α → Bool
  | .close => true
  | _ => false

def concerns [DecidableEq ι] (r : ι) (d : Deed ι α) : Bool := d.reader?.all (· = r)

end Channel.Deed

namespace Channel

variable {ι α : Type} [DecidableEq ι]

def act (c : Channel ι α) : Deed ι α → Channel ι α
  | .subscribe r => c.subscribe r
  | .unsubscribe r => c.unsubscribe r
  | .publish a => c.publish a
  | .receive r => ((c.receive? r).map Prod.snd).getD c
  | .close => c.close

def after (ds : List (Deed ι α)) : Channel ι α := ds.foldl act fresh

def receipt? (c : Channel ι α) (r : ι) : Option (Receipt α) := (c.receive? r).map Prod.fst

def hear (r : ι) (c : Channel ι α) (rs : List (Receipt α)) : Deed ι α → List (Receipt α)
  | .subscribe q | .unsubscribe q => if q = r then [] else rs
  | .receive q => if q = r then rs ++ (c.receipt? r).toList else rs
  | _ => rs

def heardFrom (r : ι) : Channel ι α → List (Receipt α) → List (Deed ι α) → List (Receipt α)
  | _, rs, [] => rs
  | c, rs, d :: ds => heardFrom r (c.act d) (c.hear r rs d) ds

def heard (r : ι) (ds : List (Deed ι α)) : List (Receipt α) := heardFrom r fresh [] ds

end Channel

/-! ## A list of one's own -/

/-- The items sent since a reader subscribed, and how many of them it has behind it. -/
structure Subscription (α : Type) where
  sent : List α
  position : Nat

namespace Subscription

variable {ι α : Type}

def fresh : Subscription α := ⟨[], 0⟩

def unread (s : Subscription α) : Nat := s.sent.length - s.position

def push (a : α) (s : Subscription α) : Subscription α := { s with sent := s.sent ++ [a] }

def answer (isOpen : Bool) (s : Subscription α) : Receipt α :=
  if Channel.capacity < s.unread then .lagged (s.unread - Channel.capacity)
  else match s.sent[s.position]? with
    | some a => .item a
    | none => if isOpen then .empty else .closed

def advance (s : Subscription α) : Subscription α :=
  if Channel.capacity < s.unread then { s with position := s.sent.length - Channel.capacity }
  else if s.position < s.sent.length then { s with position := s.position + 1 }
  else s

variable [DecidableEq ι]

def follow (r : ι) (s? : Option (Subscription α)) : Channel.Deed ι α → Option (Subscription α)
  | .subscribe q => if q = r then some fresh else s?
  | .unsubscribe q => if q = r then none else s?
  | .publish a => s?.map (push a)
  | .receive q => if q = r then s?.map advance else s?
  | .close => s?

def after? (r : ι) (ds : List (Channel.Deed ι α)) : Option (Subscription α) := ds.foldl (follow r) none

end Subscription

/-- What the answers tell of the items sent, in order: each of these was received, or is one of those missed. -/
inductive Tells {α : Type} : List (Receipt α) → List α → Prop
  | nil : Tells [] []
  | item {rs : List (Receipt α)} {xs : List α} (before : Tells rs xs) (a : α) :
      Tells (rs ++ [.item a]) (xs ++ [a])
  | lagged {rs : List (Receipt α)} {xs : List α} (before : Tells rs xs) (missed : List α) (nonempty : missed ≠ []) :
      Tells (rs ++ [.lagged missed.length]) (xs ++ missed)
  | empty {rs : List (Receipt α)} {xs : List α} (before : Tells rs xs) : Tells (rs ++ [.empty]) xs
  | closed {rs : List (Receipt α)} {xs : List α} (before : Tells rs xs) : Tells (rs ++ [.closed]) xs

namespace Receipt

variable {α : Type}

def item? : Receipt α → Option α
  | .item a => some a
  | _ => none

def missed : Receipt α → Nat
  | .lagged n => n
  | _ => 0

end Receipt

theorem Tells.length {α : Type} {rs : List (Receipt α)} {xs : List α} (h : Tells rs xs) :
    (rs.filterMap Receipt.item?).length + (rs.map Receipt.missed).sum = xs.length := by
  induction h with
  | nil => rfl
  | item _ a ih | lagged _ missed _ ih =>
    simp only [List.filterMap_append, List.map_append, List.length_append, List.sum_append, ← ih,
      List.filterMap_cons, Receipt.item?, List.map_cons, Receipt.missed, List.sum_cons]
    simp; omega
  | empty _ ih | closed _ ih =>
    simp only [List.filterMap_append, List.map_append, List.length_append, List.sum_append, ← ih,
      List.filterMap_cons, Receipt.item?, List.map_cons, Receipt.missed, List.sum_cons]
    simp

namespace Channel

variable {ι α : Type} [DecidableEq ι]

/-! ## Where readers stand -/

theorem lookup_filter_key (keep : ι → Bool) (r : ι) (l : List (ι × Nat)) :
    (l.filter fun p => keep p.1).lookup r = if keep r then l.lookup r else none := by
  induction l with
  | nil => simp
  | cons p l ih =>
    obtain ⟨q, n⟩ := p
    rw [List.filter_cons]
    by_cases hq : r = q
    · subst hq
      cases hk : keep r <;> simp [hk, ih]
    · have hb : (r == q) = false := beq_eq_false_iff_ne.mpr hq
      cases keep q <;> simp [List.lookup_cons, hb, ih]

theorem position?_unsubscribe (c : Channel ι α) (q r : ι) :
    (c.unsubscribe q).position? r = if q = r then none else c.position? r := by
  unfold position? unsubscribe
  rw [lookup_filter_key (fun x => decide (x ≠ q))]
  by_cases hq : q = r
  · simp [hq]
  · simp [hq, Ne.symm hq]

theorem position?_place (c : Channel ι α) (q r : ι) (n : Nat) :
    (c.place q n).position? r = if q = r then some n else c.position? r := by
  by_cases hq : q = r
  · subst hq
    simp [position?, place]
  · have hb : (r == q) = false := beq_eq_false_iff_ne.mpr (Ne.symm hq)
    have kept := position?_unsubscribe c q r
    rw [if_neg hq] at kept ⊢
    simpa only [position?, place, List.lookup_cons, hb, unsubscribe] using kept

theorem position?_receive (c : Channel ι α) (q r : ι) :
    (c.act (.receive q)).position? r =
      if q = r then (c.position? r).map (fun n => (c.next n).2) else c.position? r := by
  simp only [act, receive?]
  cases h : c.position? q with
  | none =>
    by_cases hq : q = r
    · subst hq; simp [h]
    · simp [hq]
  | some n =>
    simp only [Option.map_some, Option.getD_some, position?_place]
    by_cases hq : q = r
    · subst hq; simp [h]
    · simp [hq]

theorem readers_of_position {c : Channel ι α} {r : ι} {n : Nat} (h : c.position? r = some n) :
    c.readers.isEmpty = false := by
  cases hr : c.readers with
  | nil => simp [position?, hr] at h
  | cons => rfl

/-! ## The ring -/

omit [DecidableEq ι]

structure Keeps (c : Channel ι α) (history : List α) : Prop where
  sent : c.sent = history.length
  kept : c.kept = history.drop (history.length - capacity)

theorem Keeps.of_eq {c c' : Channel ι α} {history : List α} (h : c.Keeps history) (sent : c'.sent = c.sent)
    (kept : c'.kept = c.kept) : c'.Keeps history := ⟨sent.trans h.sent, kept.trans h.kept⟩

theorem Keeps.publish {c : Channel ι α} {history : List α} (h : c.Keeps history) (read : c.readers.isEmpty = false)
    (a : α) : (c.publish a).Keeps (history ++ [a]) := by
  unfold Channel.publish
  rw [read]
  refine ⟨by simp [h.sent], ?_⟩
  have short : history.length - capacity ≤ history.length := Nat.sub_le _ _
  have last : history.length - capacity + ((history.drop (history.length - capacity)).length + 1 - capacity) =
      (history ++ [a]).length - capacity := by
    simp only [List.length_drop, List.length_append, List.length_cons, List.length_nil]
    omega
  simp only [Bool.false_eq_true, if_false, h.kept]
  rw [← List.drop_append_of_le_length short, List.drop_drop, last]

theorem Keeps.getElem? {c : Channel ι α} {history : List α} (h : c.Keeps history) {n : Nat}
    (le : n ≤ history.length) (near : history.length - n ≤ capacity) :
    c.kept[c.kept.length - (c.sent - n)]? = history[n]? := by
  have place : history.length - capacity +
      (history.length - (history.length - capacity) - (history.length - n)) = n := by omega
  rw [h.sent, h.kept, List.getElem?_drop, List.length_drop, place]

end Channel

/-! ## The ring and a list of one's own -/

/-- A reader that stands at `n` in all items sent has this list of its own. -/
structure Subscription.At {α : Type} (s : Subscription α) (history : List α) (n : Nat) : Prop where
  sent : s.sent = history.drop (n - s.position)
  position : s.position ≤ n
  le : n ≤ history.length

namespace Subscription.At

variable {ι α : Type} {s : Subscription α} {history : List α} {n : Nat}

theorem fresh (history : List α) : Subscription.fresh.At history history.length :=
  ⟨by simp [Subscription.fresh], Nat.zero_le _, Nat.le_refl _⟩

theorem length (h : s.At history n) : s.sent.length + n = history.length + s.position := by
  have := h.position
  have := h.le
  rw [h.sent, List.length_drop]
  omega

theorem unread (h : s.At history n) : s.unread = history.length - n := by
  have := h.length
  unfold Subscription.unread
  omega

theorem getElem? (h : s.At history n) : s.sent[s.position]? = history[n]? := by
  have := h.position
  rw [h.sent, List.getElem?_drop]
  congr 1
  omega

theorem push (h : s.At history n) (a : α) : (s.push a).At (history ++ [a]) n where
  sent := by
    have := h.le
    simp only [Subscription.push, h.sent]
    rw [List.drop_append_of_le_length (by omega)]
  position := h.position
  le := by simp only [List.length_append]; exact Nat.le_trans h.le (Nat.le_add_right _ _)

theorem of_position {m p : Nat} (h : s.At history n) (distance : m + s.position = n + p)
    (le : m ≤ history.length) : ({ s with position := p } : Subscription α).At history m where
  sent := by
    have := h.position
    have start : n - s.position = m - p := by omega
    rw [← start]
    exact h.sent
  position := by have := h.position; simp only; omega
  le := le

/-- The ring answers as the list does, and both move on alike. -/
theorem next {c : Channel ι α} (h : s.At history n) (keeps : c.Keeps history) :
    (c.next n).1 = s.answer c.isOpen ∧ s.advance.At history (c.next n).2 := by
  have length := h.length
  have position := h.position
  have le := h.le
  unfold Channel.next
  rw [keeps.sent]
  by_cases lagging : Channel.capacity < history.length - n
  · -- the place moves by as much on both sides, to the oldest item kept
    have behind : Channel.capacity < s.unread := by rw [h.unread]; exact lagging
    rw [Subscription.answer, Subscription.advance, if_pos lagging, if_pos behind, if_pos behind, h.unread]
    exact ⟨rfl, h.of_position (by omega) (Nat.sub_le _ _)⟩
  · have near : ¬ Channel.capacity < s.unread := by rw [h.unread]; exact lagging
    rw [Subscription.answer, Subscription.advance, if_neg lagging, if_neg near, if_neg near, h.getElem?]
    by_cases read : history.length - n = 0
    · have none_left : history[n]? = none := List.getElem?_eq_none (by omega)
      have ended : ¬ s.position < s.sent.length := by omega
      rw [if_pos read, none_left, if_neg ended]
      exact ⟨rfl, h⟩
    · have more : n < history.length := by omega
      have item := keeps.getElem? le (Nat.le_of_not_lt lagging)
      rw [keeps.sent] at item
      have some_left : s.position < s.sent.length := by omega
      rw [if_neg read, item, List.getElem?_eq_getElem more, if_pos some_left]
      have next_place : n + 1 + s.position = n + (s.position + 1) := by omega
      exact ⟨rfl, h.of_position next_place more⟩

end Subscription.At

namespace Channel

variable {ι α : Type} [DecidableEq ι] {c : Channel ι α} {history : List α} {r : ι} {s? : Option (Subscription α)}

/-- The channel keeps the last items sent, and reader `r` stands in them as in its own list. -/
structure Agrees (r : ι) (c : Channel ι α) (history : List α) (s? : Option (Subscription α)) : Prop where
  keeps : c.Keeps history
  reader : Option.Rel (fun s n => s.At history n) s? (c.position? r)

theorem agrees_fresh (r : ι) : Agrees r (fresh : Channel ι α) [] none :=
  ⟨⟨rfl, List.drop_nil.symm⟩, .none⟩

theorem Agrees.publish (h : Agrees r c history s?) (a : α) :
    ∃ history', Agrees r (c.publish a) history' (s?.map (·.push a)) := by
  cases read : c.readers.isEmpty with
  | true =>
    -- without a reader nothing is sent, and `r` is none
    have same : c.publish a = c := by rw [Channel.publish, if_pos read]
    rw [same]
    obtain ⟨keeps, reader⟩ := h
    cases hp : c.position? r with
    | some n => rw [readers_of_position hp] at read; cases read
    | none =>
      rw [hp] at reader
      cases reader
      exact ⟨history, keeps, by rw [hp]; exact .none⟩
  | false =>
    refine ⟨history ++ [a], h.keeps.publish read a, ?_⟩
    have same : (c.publish a).position? r = c.position? r := by unfold Channel.publish; split <;> rfl
    rw [same]
    have reader := h.reader
    generalize c.position? r = n? at reader ⊢
    cases reader with
    | none => exact .none
    | some at_n => exact .some (at_n.push a)

theorem Agrees.act (h : Agrees r c history s?) (d : Deed ι α) :
    ∃ history', Agrees r (c.act d) history' (Subscription.follow r s? d) := by
  cases d with
  | publish a => exact h.publish a
  | close => exact ⟨history, h.keeps.of_eq rfl rfl, h.reader⟩
  | subscribe q =>
    refine ⟨history, h.keeps.of_eq rfl rfl, ?_⟩
    simp only [Channel.act, subscribe, position?_place, Subscription.follow]
    split
    · rw [h.keeps.sent]; exact .some (.fresh history)
    · exact h.reader
  | unsubscribe q =>
    refine ⟨history, h.keeps.of_eq rfl rfl, ?_⟩
    simp only [Channel.act, position?_unsubscribe, Subscription.follow]
    split
    · exact .none
    · exact h.reader
  | receive q =>
    refine ⟨history, ?_, ?_⟩
    · simp only [Channel.act, receive?]
      cases c.position? q <;> exact h.keeps.of_eq rfl rfl
    · simp only [position?_receive, Subscription.follow]
      split
      · have reader := h.reader
        generalize c.position? r = n? at reader ⊢
        cases reader with
        | none => exact .none
        | some at_n => exact .some (at_n.next h.keeps).2
      · exact h.reader

theorem Agrees.receipt? (h : Agrees r c history s?) : c.receipt? r = s?.map (·.answer c.isOpen) := by
  unfold Channel.receipt? receive?
  obtain ⟨keeps, reader⟩ := h
  generalize c.position? r = n? at reader ⊢
  cases reader with
  | none => rfl
  | some at_n => exact congrArg some (at_n.next keeps).1

theorem Agrees.unread? (h : Agrees r c history s?) : c.unread? r = s?.map (·.unread) := by
  unfold Channel.unread?
  obtain ⟨keeps, reader⟩ := h
  generalize c.position? r = n? at reader ⊢
  cases reader with
  | none => rfl
  | some at_n => simp [at_n.unread, keeps.sent]

/-! ## Along a sequence of deeds -/

theorem Agrees.along (ds : List (Deed ι α)) (h : Agrees r c history s?) :
    ∃ history', Agrees r (ds.foldl Channel.act c) history' (ds.foldl (Subscription.follow r) s?) := by
  induction ds generalizing c history s? with
  | nil => exact ⟨history, h⟩
  | cons d ds ih =>
    obtain ⟨history', next⟩ := h.act d
    exact ih next

theorem agrees_after (r : ι) (ds : List (Deed ι α)) :
    ∃ history, Agrees r (after ds) history (Subscription.after? r ds) := (agrees_fresh r).along ds

theorem isOpen_act (c : Channel ι α) (d : Deed ι α) : (c.act d).isOpen = (c.isOpen && !d.isClose) := by
  cases d with
  | publish a => simp only [act, publish, Deed.isClose]; split <;> simp
  | receive q => simp only [act, receive?, Deed.isClose]; cases c.position? q <;> simp [place]
  | close => simp [act, close, Deed.isClose]
  | _ => simp [act, subscribe, unsubscribe, place, Deed.isClose]

theorem isOpen_foldl (c : Channel ι α) (ds : List (Deed ι α)) :
    (ds.foldl act c).isOpen = (c.isOpen && ds.all (!·.isClose)) := by
  induction ds generalizing c with
  | nil => simp
  | cons d ds ih => rw [List.foldl_cons, ih, isOpen_act, List.all_cons, Bool.and_assoc]

theorem isOpen_after (ds : List (Deed ι α)) : (after ds).isOpen = ds.all (!·.isClose) := isOpen_foldl fresh ds

/-! ## What a reader was told -/

def Accounted (rs : List (Receipt α)) (s? : Option (Subscription α)) : Prop :=
  ∀ s, s? = some s → Tells rs (s.sent.take s.position)

end Channel

theorem Subscription.tells_answer {α : Type} {s : Subscription α} {rs : List (Receipt α)}
    (h : Tells rs (s.sent.take s.position)) (le : s.position ≤ s.sent.length) (isOpen : Bool) :
    Tells (rs ++ [s.answer isOpen]) (s.advance.sent.take s.advance.position) := by
  unfold answer advance
  by_cases lagging : Channel.capacity < s.unread
  · have split_at : s.sent.length - Channel.capacity = s.position + (s.unread - Channel.capacity) := by
      unfold unread at lagging ⊢; omega
    have missed : ((s.sent.drop s.position).take (s.unread - Channel.capacity)).length =
        s.unread - Channel.capacity := by
      unfold unread at lagging ⊢
      rw [List.length_take, List.length_drop]; omega
    rw [if_pos lagging, if_pos lagging, split_at, List.take_add]
    have told := h.lagged ((s.sent.drop s.position).take (s.unread - Channel.capacity)) (by
      intro nothing
      rw [nothing, List.length_nil] at missed
      omega)
    rw [missed] at told
    exact told
  · rw [if_neg lagging, if_neg lagging]
    by_cases more : s.position < s.sent.length
    · rw [if_pos more, List.getElem?_eq_getElem more, List.take_succ_eq_append_getElem more]
      exact h.item _
    · rw [if_neg more, List.getElem?_eq_none (Nat.le_of_not_lt more)]
      cases isOpen with
      | true => exact h.empty
      | false => exact h.closed

namespace Channel

variable {ι α : Type} [DecidableEq ι] {c c' : Channel ι α} {history history' : List α} {r : ι}
  {s? : Option (Subscription α)} {rs : List (Receipt α)}

theorem Agrees.position_le (h : Agrees r c history s?) {s : Subscription α} (hs : s? = some s) :
    s.position ≤ s.sent.length := by
  obtain ⟨keeps, reader⟩ := h
  subst hs
  generalize c.position? r = n? at reader
  cases reader with
  | some at_n =>
    have := at_n.length
    have := at_n.le
    omega

theorem Agrees.accounted (h : Agrees r c history s?) (told : Accounted rs s?) (d : Deed ι α) :
    Accounted (c.hear r rs d) (Subscription.follow r s? d) := by
  intro s' hs'
  cases d with
  | close => exact told s' hs'
  | publish a =>
    obtain ⟨s, hs, rfl⟩ := Option.map_eq_some_iff.mp hs'
    simp only [hear, Subscription.push]
    rw [List.take_append_of_le_length (h.position_le hs)]
    exact told s hs
  | subscribe q =>
    simp only [hear, Subscription.follow] at hs' ⊢
    by_cases hq : q = r
    · rw [if_pos hq] at hs' ⊢
      cases hs'
      exact .nil
    · rw [if_neg hq] at hs' ⊢
      exact told s' hs'
  | unsubscribe q =>
    simp only [hear, Subscription.follow] at hs' ⊢
    by_cases hq : q = r
    · rw [if_pos hq] at hs'; cases hs'
    · rw [if_neg hq] at hs' ⊢
      exact told s' hs'
  | receive q =>
    simp only [hear, Subscription.follow] at hs' ⊢
    by_cases hq : q = r
    · rw [if_pos hq] at hs' ⊢
      obtain ⟨s, hs, rfl⟩ := Option.map_eq_some_iff.mp hs'
      rw [h.receipt?, hs]
      exact Subscription.tells_answer (told s hs) (h.position_le hs) c.isOpen
    · rw [if_neg hq] at hs' ⊢
      exact told s' hs'

theorem Agrees.accounted_along (ds : List (Deed ι α)) (h : Agrees r c history s?) (told : Accounted rs s?) :
    Accounted (heardFrom r c rs ds) (ds.foldl (Subscription.follow r) s?) := by
  induction ds generalizing c history s? rs with
  | nil => exact told
  | cons d ds ih =>
    obtain ⟨history', next⟩ := h.act d
    exact ih next (h.accounted told d)

/-! ## Other readers -/

theorem follow_of_other {d : Deed ι α} (other : d.concerns r = false) : Subscription.follow r s? d = s? := by
  cases d with
  | publish | close => cases other
  | subscribe q | unsubscribe q | receive q =>
    have hq : q ≠ r := by simpa [Deed.concerns, Deed.reader?] using other
    simp only [Subscription.follow, if_neg hq]

theorem hear_of_other {d : Deed ι α} (other : d.concerns r = false) : c.hear r rs d = rs := by
  cases d with
  | publish | close => cases other
  | subscribe q | unsubscribe q | receive q =>
    have hq : q ≠ r := by simpa [Deed.concerns, Deed.reader?] using other
    simp only [hear, if_neg hq]

theorem isClose_of_other {d : Deed ι α} (other : d.concerns r = false) : d.isClose = false := by
  cases d with
  | close => cases other
  | _ => rfl

theorem Agrees.hear_eq (h : Agrees r c history s?) (h' : Agrees r c' history' s?) (open_eq : c'.isOpen = c.isOpen)
    (d : Deed ι α) : c'.hear r rs d = c.hear r rs d := by
  cases d with
  | receive q => simp only [hear, h.receipt?, h'.receipt?, open_eq]
  | _ => rfl

theorem Agrees.heard_alone (ds : List (Deed ι α)) (h : Agrees r c history s?) (h' : Agrees r c' history' s?)
    (open_eq : c'.isOpen = c.isOpen) :
    heardFrom r c' rs (ds.filter (·.concerns r)) = heardFrom r c rs ds ∧
      ((ds.filter (·.concerns r)).foldl Channel.act c').receipt? r = (ds.foldl Channel.act c).receipt? r := by
  induction ds generalizing c c' history history' s? rs with
  | nil => exact ⟨rfl, by rw [List.filter_nil, List.foldl_nil, List.foldl_nil, h.receipt?, h'.receipt?, open_eq]⟩
  | cons d ds ih =>
    obtain ⟨later, next⟩ := h.act d
    cases hd : d.concerns r with
    | true =>
      obtain ⟨later', next'⟩ := h'.act d
      rw [List.filter_cons_of_pos hd, List.foldl_cons, List.foldl_cons, heardFrom, heardFrom,
        h.hear_eq h' open_eq]
      exact ih next next' (by rw [isOpen_act, isOpen_act, open_eq])
    | false =>
      rw [List.filter_cons_of_neg (by rw [hd]; exact Bool.false_ne_true), List.foldl_cons, heardFrom,
        hear_of_other hd]
      rw [follow_of_other hd] at next
      exact ih next h' (by rw [isOpen_act, isClose_of_other hd, open_eq]; simp)

end Channel

/-! ## The whole -/

/-- A broadcasting handler takes every report, with readers or without. -/
theorem Gate.hand_broadcast {σ : Type} {g : Gate σ} {k : Nat} (h : g.handler = some ⟨k, .broadcast⟩) (who : Party)
    (report : Bytes) :
    (g.hand who report).1 = .accept ∧ (g.hand who report).2.feed = g.feed.map (·.publish report) ∧
      (g.propagateReport who report).1 = .done := by
  have handed : g.hand who report = (.accept, (g.hand who report).2) := by unfold hand; rw [h]
  refine ⟨by rw [handed], by unfold hand; rw [h], ?_⟩
  unfold propagateReport
  rw [handed]

namespace Channel

/-- Whatever is done to a channel, each reader is answered out of a list of its own. What it was told, the items that
it received and those that were counted as missed, makes up the items behind it, in order; the rest is still
unread. What other readers do does not show. And reports can be sent at any time. -/
theorem broadcast_accounted {ι α : Type} [DecidableEq ι] (ds : List (Deed ι α)) (r : ι) :
    (after ds).receipt? r = (Subscription.after? r ds).map (·.answer (ds.all (!·.isClose))) ∧
      (∀ s, Subscription.after? r ds = some s →
        s.position ≤ s.sent.length ∧ Tells (heard r ds) (s.sent.take s.position) ∧
          (after ds).unread? r = some s.unread ∧
          ((heard r ds).filterMap Receipt.item?).length + ((heard r ds).map Receipt.missed).sum + s.unread =
            s.sent.length) ∧
      (heard r (ds.filter (·.concerns r)) = heard r ds ∧
        (after (ds.filter (·.concerns r))).receipt? r = (after ds).receipt? r) ∧
      ∀ (σ : Type) (g : Gate σ) (k : Nat) (who : Party) (report : Bytes), g.handler = some ⟨k, .broadcast⟩ →
        (g.hand who report).1 = .accept ∧ (g.hand who report).2.feed = g.feed.map (·.publish report) ∧
          (g.propagateReport who report).1 = .done := by
  obtain ⟨history, agrees⟩ := agrees_after r ds
  refine ⟨?_, ?_, ?_, ?_⟩
  · rw [agrees.receipt?, isOpen_after]
  · intro s hs
    have le := agrees.position_le hs
    have told : Tells (heard r ds) (s.sent.take s.position) := by
      refine (agrees_fresh r).accounted_along ds ?_ s hs
      intro s' hs'
      cases hs'
    have behind : (s.sent.take s.position).length = s.position := by rw [List.length_take]; omega
    refine ⟨le, told, by rw [agrees.unread?, hs]; rfl, ?_⟩
    rw [told.length, behind]
    unfold Subscription.unread
    omega
  · exact (agrees_fresh r).heard_alone ds (agrees_fresh r) rfl
  · intro σ g k who report h
    exact Gate.hand_broadcast h who report

/-- One reader is 258 items behind when another, which came late, has taken its only item and the channel is
closed. -/
theorem broadcast_accounted_of_closed :
    let ds : List (Deed Bool Nat) := .subscribe true :: List.replicate 257 (.publish 7)
      ++ [.subscribe false, .publish 8, .receive false, .close, .receive true, .receive true, .receive false]
    heard true ds = [.lagged 2, .item 7] ∧ heard false ds = [.item 8, .closed] ∧
      ∃ s, Subscription.after? true ds = some s ∧ s.sent.length = 258 ∧ s.unread = 255 ∧
        Tells (heard true ds) (s.sent.take s.position) := by
  intro ds
  refine ⟨by decide +kernel, by decide +kernel, ?_⟩
  have stands : (Subscription.after? true ds).map (fun s => (s.sent.length, s.unread)) = some (258, 255) := by
    decide +kernel
  obtain ⟨s, hs, counts⟩ := Option.map_eq_some_iff.mp stands
  obtain ⟨-, told, -, -⟩ := (broadcast_accounted ds true).2.1 s hs
  exact ⟨s, hs, congrArg Prod.fst counts, congrArg Prod.snd counts, told⟩

end Channel

end HidGate
