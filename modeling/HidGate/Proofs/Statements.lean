import HidGate.Toml.Document

/-!
# Documents as statements

A document is a list of statements: values for keys, and headers of tables. What is blank and what is a comment is no
part of it. Each statement mentions one name of the top-level table. It gives that name its value, once and for all,
where it stands under no header and its key has one part; otherwise it leads into a table of that name, which no value
may take the place of. So the top-level table says just what the mentions say, in whatever order they come.
-/

namespace HidGate.Toml

inductive Statement
  | pair (path : List String) (k : String) (v : Value)
  | header (path : List String) (k : String)
  | element (path : List String) (k : String)

namespace Document

/-! ## Reading and building apart -/

def pairStatement : Reader Statement := fun s => do
  let ((path, k), r) ← key s
  match r with
  | '=' :: r => do
    let (v, r) ← value depthLimit (skipBlanks r)
    let rest ← endOfLine r
    return (.pair path k v, rest)
  | _ => none

def headerStatement (element : Bool) : Reader Statement := fun s => do
  let ((path, k), r) ← key s
  let r ← if element then
      match r with
      | ']' :: ']' :: r => some r
      | _ => none
    else
      match r with
      | ']' :: r => some r
      | _ => none
  let rest ← endOfLine r
  return (if element then .element path k else .header path k, rest)

def statement : Reader Statement
  | '[' :: '[' :: r => headerStatement true r
  | '[' :: r => headerStatement false r
  | s => pairStatement s

def statements : Nat → List Char → Option (List Statement)
  | 0, _ => none
  | fuel + 1, s =>
    match skipBlanks s with
    | [] => some []
    | '\n' :: r => statements fuel r
    | '#' :: r => (comment r).bind (statements fuel)
    | r => (statement r).bind fun (x, rest) => (statements fuel rest).map (x :: ·)

/-- The statements of a whole document, if each of its lines is well-formed by itself. -/
def read (s : List Char) : Option (List Statement) :=
  let s := joinBreaks (dropMark s)
  statements (s.length + 1) s

def State.add? (st : State) : Statement → Option State
  | .pair path k v => (st.table.define st.header path k v).map (⟨·, st.header⟩)
  | .header path k => (st.table.openTable path k).map (⟨·, path ++ [k]⟩)
  | .element path k => (st.table.openElement path k).map (⟨·, path ++ [k]⟩)

def build (xs : List Statement) : Option Table := (xs.foldlM State.add? ⟨[], []⟩).map (·.table)

theorem pairLine_eq (st : State) (s : List Char) :
    pairLine st s = (pairStatement s).bind fun (x, rest) => (st.add? x).map (·, rest) := by
  unfold pairLine pairStatement
  cases key s with
  | none => rfl
  | some found =>
    obtain ⟨⟨path, k⟩, r⟩ := found
    simp only [Option.bind_eq_bind, Option.bind_some]
    by_cases mark : ∃ r', r = '=' :: r'
    · obtain ⟨r, rfl⟩ := mark
      cases given : value depthLimit (skipBlanks r) with
      | none => simp [given]
      | some found =>
        cases ends : endOfLine found.2 with
        | none => simp [given, ends]
        | some rest =>
          cases added : st.table.define st.header path k found.1 <;> simp [State.add?, given, ends, added]
    · have other : ∀ r', r ≠ '=' :: r' := fun r' h => mark ⟨r', h⟩
      split
      · exact absurd rfl (other _)
      · simp

theorem headerLine_eq (element : Bool) (st : State) (s : List Char) :
    headerLine element st s = (headerStatement element s).bind fun (x, rest) => (st.add? x).map (·, rest) := by
  unfold headerLine headerStatement
  cases key s with
  | none => rfl
  | some found =>
    obtain ⟨⟨path, k⟩, r⟩ := found
    cases element with
    | true =>
      simp only [Option.bind_eq_bind, Option.bind_some, if_true]
      by_cases mark : ∃ r', r = ']' :: ']' :: r'
      · obtain ⟨r, rfl⟩ := mark
        cases ends : endOfLine r with
        | none => simp [ends]
        | some rest => cases added : st.table.openElement path k <;> simp [State.add?, ends, added]
      · split
        · exact absurd ⟨_, rfl⟩ mark
        · simp
    | false =>
      simp only [Option.bind_eq_bind, Option.bind_some, Bool.false_eq_true, if_false]
      by_cases mark : ∃ r', r = ']' :: r'
      · obtain ⟨r, rfl⟩ := mark
        cases ends : endOfLine r with
        | none => simp [ends]
        | some rest => cases added : st.table.openTable path k <;> simp [State.add?, ends, added]
      · split
        · exact absurd ⟨_, rfl⟩ mark
        · simp

theorem line_eq (st : State) (s : List Char) :
    line st s = (statement s).bind fun (x, rest) => (st.add? x).map (·, rest) := by
  unfold statement
  split
  · exact headerLine_eq true st _
  · rename_i r apart
    rw [line]
    · exact headerLine_eq false st _
    · exact apart
  · rename_i s apart apart'
    rw [line]
    · exact pairLine_eq st _
    · exact apart
    · exact apart'

theorem lines_eq (fuel : Nat) (st : State) (s : List Char) :
    lines fuel st s = (statements fuel s).bind fun xs => (xs.foldlM State.add? st).map (·.table) := by
  induction fuel generalizing st s with
  | zero => rfl
  | succ fuel ih =>
    unfold lines statements
    generalize skipBlanks s = front
    split
    · rfl
    · exact ih st _
    · rename_i r
      cases left : comment r with
      | none => simp_all
      | some r => simp_all
    · cases stated : statement front with
      | none => simp [line_eq, stated]
      | some found =>
        obtain ⟨x, rest⟩ := found
        cases added : st.add? x with
        | none => cases others : statements fuel rest <;> simp [line_eq, stated, added, others]
        | some st' => cases others : statements fuel rest <;> simp [line_eq, stated, added, others, ih]

theorem parse_eq (s : List Char) : parse s = (read s).bind build := lines_eq _ _ _

end Document

/-! ## Open tables -/

/-- A table that headers and dotted keys lead into, so that more may be added to it. -/
def Value.isOpen : Value → Bool
  | .table .braces _ => false
  | .table .. | .elements _ => true
  | _ => false

def Value.closed? (v : Value) : Option Value := if v.isOpen then none else some v

namespace Document

theorem scalar_closed {s rest : List Char} {v : Value} (given : scalar s = some (v, rest)) : v.isOpen = false := by
  unfold scalar at given
  split at given
  · cases given
  · split at given
    · obtain ⟨_, _, same⟩ := Option.map_eq_some_iff.mp given
      cases same
      rfl
    · split at given
      · split at given
        · cases given
          rfl
        · cases given
          rfl
        · obtain ⟨_, _, same⟩ := Option.map_eq_some_iff.mp given
          cases same
          rfl
      · split at given
        · cases given
          rfl
        · cases given
          rfl
        · obtain ⟨_, _, same⟩ := Option.map_eq_some_iff.mp given
          cases same
          rfl

theorem value_closed {depth : Nat} {s rest : List Char} {v : Value} (given : value depth s = some (v, rest)) :
    v.isOpen = false := by
  cases depth with
  | zero => exact scalar_closed given
  | succ depth =>
    unfold value at given
    split at given
    · obtain ⟨_, _, same⟩ := Option.map_eq_some_iff.mp given
      cases same
      rfl
    · obtain ⟨_, _, same⟩ := Option.map_eq_some_iff.mp given
      cases same
      rfl
    · exact scalar_closed given

end Document

namespace Table

variable {k : String} {v : Value} {t t' : Table}

theorem lookup_put (t : Table) (k : String) (v : Value) (k' : String) :
    (t.put k v).lookup k' = if k' = k then some v else t.lookup k' := by
  induction t with
  | nil =>
    by_cases same : k' = k
    · simp [put, same]
    · simp [put, List.lookup_cons, beq_false_of_ne same, same]
  | cons entry t ih =>
    obtain ⟨k₁, v₁⟩ := entry
    by_cases first : k₁ = k
    · subst first
      by_cases same : k' = k₁
      · simp [put, same]
      · simp [put, List.lookup_cons, beq_false_of_ne same, same]
    · by_cases here : k' = k₁
      · subst here
        simp [put, first]
      · simp [put, first, List.lookup_cons, beq_false_of_ne here, ih]

structure Leads (k : String) (t t' : Table) : Prop where
  others : ∀ k', k' ≠ k → t'.lookup k' = t.lookup k'
  before : ∀ v, t.lookup k = some v → v.isOpen = true
  after : ∃ v, t'.lookup k = some v ∧ v.isOpen = true

theorem leads_put (before : ∀ v, t.lookup k = some v → v.isOpen = true) (opened : v.isOpen = true) :
    Leads k t (t.put k v) := by
  refine ⟨fun k' other => ?_, before, v, ?_, opened⟩
  · rw [lookup_put, if_neg other]
  · rw [lookup_put, if_pos rfl]

theorem leads_new (absent : t.lookup k = none) (opened : v.isOpen = true) : Leads k t (t.put k v) :=
  leads_put (by simp [absent]) opened

theorem leads_known {v' : Value} (there : t.lookup k = some v') (before : v'.isOpen = true) (opened : v.isOpen = true) :
    Leads k t (t.put k v) :=
  leads_put (by simp [there, before]) opened

theorem within_leads {f : Table → Option Table} {ks : List String} (goes : within f (k :: ks) t = some t') :
    Leads k t t' := by
  unfold within at goes
  split at goes
  · rename_i absent
    obtain ⟨sub, -, rfl⟩ := Option.map_eq_some_iff.mp goes
    exact leads_new absent rfl
  · cases goes
  · rename_i origin sub complete there
    obtain ⟨sub', -, rfl⟩ := Option.map_eq_some_iff.mp goes
    have opened (sub : Table) : (Value.table origin sub).isOpen = true := by
      cases origin with
      | braces => exact absurd rfl complete
      | header | implied | dotted => rfl
    exact leads_known there (opened sub) (opened sub')
  · rename_i there
    obtain ⟨ts, -, rfl⟩ := Option.map_eq_some_iff.mp goes
    exact leads_known there rfl rfl
  · cases goes

theorem insert_leads {k' : String} {direct : Bool} {ks : List String}
    (goes : insert k' v direct (k :: ks) t = some t') : Leads k t t' := by
  unfold insert at goes
  split at goes
  · rename_i absent
    obtain ⟨sub, -, rfl⟩ := Option.map_eq_some_iff.mp goes
    exact leads_new absent rfl
  · rename_i there
    obtain ⟨sub', -, rfl⟩ := Option.map_eq_some_iff.mp goes
    exact leads_known there rfl rfl
  · rename_i there
    obtain ⟨sub', -, rfl⟩ := Option.map_eq_some_iff.mp goes
    exact leads_known there rfl rfl
  · rename_i there
    obtain ⟨ts, -, rfl⟩ := Option.map_eq_some_iff.mp goes
    exact leads_known there rfl rfl
  · cases goes

/-- What is done at the end of a path is done somewhere in the table that the path begins with. -/
theorem within_leads_headD {f : Table → Option Table} {path : List String}
    (inner : ∀ {t t'}, f t = some t' → Leads k t t') (goes : within f path t = some t') :
    Leads (path.headD k) t t' := by
  cases path with
  | nil => exact inner goes
  | cons p path => exact within_leads goes

theorem openTable_leads {path : List String} (goes : t.openTable path k = some t') : Leads (path.headD k) t t' := by
  refine within_leads_headD (fun {t t'} opens => ?_) goes
  split at opens
  · rename_i absent
    cases opens
    exact leads_new absent rfl
  · rename_i there
    cases opens
    exact leads_known there rfl rfl
  · cases opens

theorem openElement_leads {path : List String} (goes : t.openElement path k = some t') :
    Leads (path.headD k) t t' := by
  refine within_leads_headD (fun {t t'} opens => ?_) goes
  split at opens
  · rename_i absent
    cases opens
    exact leads_new absent rfl
  · rename_i there
    cases opens
    exact leads_known there rfl rfl
  · cases opens

theorem define_leads {header path : List String} {p : String} {ps : List String} (full : header ++ path = p :: ps)
    (goes : t.define header path k v = some t') : Leads p t t' := by
  cases header with
  | cons q header =>
    cases full
    exact within_leads goes
  | nil =>
    rw [List.nil_append] at full
    have inserts : insert k v true (p :: ps) t = some t' := by rwa [full] at goes
    exact insert_leads inserts

theorem define_eq_some (goes : t.define [] [] k v = some t') : t.lookup k = none ∧ t' = t.put k v := by
  simp only [define, within, insert, Bool.true_and] at goes
  split at goes
  · rename_i absent
    cases goes
    exact ⟨Option.isNone_iff_eq_none.mp absent, rfl⟩
  · cases goes

end Table

/-! ## Mentions -/

/-- The name of the top-level table that a statement under this header mentions, with its value if it gives it one. -/
def Statement.mention (header : List String) : Statement → String × Option Value
  | .pair path k v => ((header ++ path).headD k, if (header ++ path).isEmpty then some v else none)
  | .header path k | .element path k => (path.headD k, none)

def Statement.headerAfter (header : List String) : Statement → List String
  | .pair .. => header
  | .header path k | .element path k => path ++ [k]

def mentions : List String → List Statement → List (String × Option Value)
  | _, [] => []
  | header, x :: xs => x.mention header :: mentions (x.headerAfter header) xs

def Statement.IsClosed : Statement → Prop
  | .pair _ _ v => v.isOpen = false
  | .header .. | .element .. => True

/-- What a name is mentioned with is what it has in the table: its value, or that it is an open table. -/
def Table.Reflects (ms : List (String × Option Value)) (t : Table) : Prop :=
  ∀ k o, (k, o) ∈ ms ↔ (t.lookup k).map Value.closed? = some o

section
variable {ms : List (String × Option Value)} {t t' : Table} {k : String} {v : Value}

theorem Table.Reflects.put (reflects : t.Reflects ms) (fresh : t.lookup k = none) (closed : v.isOpen = false) :
    (t.put k v).Reflects (ms ++ [(k, some v)]) := by
  intro k' o
  rw [List.mem_append, List.mem_singleton, lookup_put, reflects k' o]
  by_cases same : k' = k
  · subst same
    simp [fresh, Value.closed?, closed, eq_comm]
  · simp [same]

theorem Table.Reflects.leads (reflects : t.Reflects ms) (leads : Leads k t t') : t'.Reflects (ms ++ [(k, none)]) := by
  obtain ⟨others, before, v, there, opened⟩ := leads
  intro k' o
  rw [List.mem_append, List.mem_singleton, reflects k' o]
  by_cases same : k' = k
  · subst same
    cases earlier : t.lookup k' with
    | none => simp [there, Value.closed?, opened, eq_comm]
    | some v' => simp [there, Value.closed?, opened, before v' earlier, eq_comm]
  · simp [same, others k' same]

namespace Document

theorem State.add?_reflects {st st' : State} {x : Statement} (reflects : st.table.Reflects ms) (closed : x.IsClosed)
    (adds : st.add? x = some st') :
    st'.header = x.headerAfter st.header ∧ st'.table.Reflects (ms ++ [x.mention st.header]) := by
  cases x with
  | pair path k v =>
    obtain ⟨t', defines, rfl⟩ := Option.map_eq_some_iff.mp adds
    refine ⟨rfl, ?_⟩
    cases full : st.header ++ path with
    | nil =>
      obtain ⟨top, direct⟩ := List.append_eq_nil_iff.mp full
      rw [top, direct] at defines
      obtain ⟨fresh, rfl⟩ := Table.define_eq_some defines
      simpa [Statement.mention, full] using reflects.put fresh closed
    | cons p ps => simpa [Statement.mention, full] using reflects.leads (Table.define_leads full defines)
  | header path k =>
    obtain ⟨t', opens, rfl⟩ := Option.map_eq_some_iff.mp adds
    exact ⟨rfl, reflects.leads (Table.openTable_leads opens)⟩
  | element path k =>
    obtain ⟨t', opens, rfl⟩ := Option.map_eq_some_iff.mp adds
    exact ⟨rfl, reflects.leads (Table.openElement_leads opens)⟩

theorem foldlM_reflects {st st' : State} {xs : List Statement} (reflects : st.table.Reflects ms)
    (closed : ∀ x ∈ xs, x.IsClosed) (adds : xs.foldlM State.add? st = some st') :
    st'.table.Reflects (ms ++ mentions st.header xs) := by
  -- on the statements, each of which adds its mention under the header that the last one left
  induction xs generalizing st ms with
  | nil =>
    cases adds
    simpa [mentions] using reflects
  | cons x xs ih =>
    rw [List.foldlM_cons] at adds
    obtain ⟨st₁, first, rest⟩ := Option.bind_eq_some_iff.mp adds
    obtain ⟨header, reflects⟩ := State.add?_reflects reflects (closed x List.mem_cons_self) first
    have whole := ih reflects (fun y hy => closed y (List.mem_cons_of_mem x hy)) rest
    rwa [header, List.append_assoc] at whole

theorem pairStatement_isClosed {s rest : List Char} {x : Statement} (stated : pairStatement s = some (x, rest)) :
    x.IsClosed := by
  simp only [pairStatement, Option.bind_eq_bind, Option.bind_eq_some_iff] at stated
  obtain ⟨⟨⟨path, k⟩, r⟩, -, stated⟩ := stated
  split at stated
  · simp only [Option.bind_eq_some_iff] at stated
    obtain ⟨⟨v, r'⟩, given, rest', -, same⟩ := stated
    cases same
    exact value_closed given
  · cases stated

theorem headerStatement_isClosed {element : Bool} {s rest : List Char} {x : Statement}
    (stated : headerStatement element s = some (x, rest)) : x.IsClosed := by
  cases x with
  | header | element => trivial
  | pair path k v =>
    cases element with
    | true | false =>
      simp only [headerStatement, Option.bind_eq_bind, Option.bind_eq_some_iff] at stated
      obtain ⟨_, -, stated⟩ := stated
      simp only [Bool.false_eq_true, if_true, if_false] at stated
      split at stated
      · simp [Option.bind_eq_some_iff] at stated
      · cases stated

theorem statement_isClosed {s rest : List Char} {x : Statement} (stated : statement s = some (x, rest)) :
    x.IsClosed := by
  unfold statement at stated
  split at stated
  · exact headerStatement_isClosed stated
  · exact headerStatement_isClosed stated
  · exact pairStatement_isClosed stated

theorem statements_isClosed {fuel : Nat} {s : List Char} {xs : List Statement} (stated : statements fuel s = some xs) :
    ∀ x ∈ xs, x.IsClosed := by
  induction fuel generalizing s xs with
  | zero => cases stated
  | succ fuel ih =>
    unfold statements at stated
    split at stated
    · cases stated
      simp
    · exact ih stated
    · obtain ⟨r, -, stated⟩ := Option.bind_eq_some_iff.mp stated
      exact ih stated
    · obtain ⟨⟨x, rest⟩, first, stated⟩ := Option.bind_eq_some_iff.mp stated
      obtain ⟨xs, others, rfl⟩ := Option.map_eq_some_iff.mp stated
      exact List.forall_mem_cons.mpr ⟨statement_isClosed first, ih others⟩

/-- The top-level table of a document says what its statements mention, and nothing else. -/
theorem reflects_of_parse {s : List Char} (parsed : parse s = some t) :
    ∃ xs, read s = some xs ∧ build xs = some t ∧ t.Reflects (mentions [] xs) := by
  rw [parse_eq] at parsed
  obtain ⟨xs, stated, built⟩ := Option.bind_eq_some_iff.mp parsed
  refine ⟨xs, stated, built, ?_⟩
  obtain ⟨st, adds, rfl⟩ := Option.map_eq_some_iff.mp built
  have empty : Table.Reflects [] [] := fun k o => by simp
  have whole := @foldlM_reflects [] ⟨[], []⟩ st xs empty (statements_isClosed stated) adds
  rwa [List.nil_append] at whole

theorem reflects_of_read {s : List Char} {xs : List Statement} (stated : read s = some xs)
    (built : (build xs).isSome = true) : ∃ t, parse s = some t ∧ t.Reflects (mentions [] xs) := by
  obtain ⟨t, built⟩ := Option.isSome_iff_exists.mp built
  have parsed : parse s = some t := by rw [parse_eq, stated, Option.bind_some, built]
  obtain ⟨xs', stated', -, reflects⟩ := reflects_of_parse parsed
  cases stated.symm.trans stated'
  exact ⟨t, parsed, reflects⟩

end Document

end

end HidGate.Toml
