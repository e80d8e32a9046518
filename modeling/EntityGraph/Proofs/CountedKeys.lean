import EntityGraph.Proofs.FreshKeys

/-!
How far keys are counted up. Until it has to wrap, the counter of a table is the largest integer of
64 bits that an insert has given for a key, whether the caller supplied it or it was counted. After
the largest there is counting goes on at the smallest, so keys are counted one by one exactly as
long as that largest has not been given.
-/

namespace EntityGraph
namespace MemoryStore

/-- What is kept of the values has no key. -/
def Keyless (e : Entity) (primary : String) (values : Row) : Prop :=
  (Json.field (declaredValues e values) primary).isNull = true

/-- The insert fails, or it gives the integer after the counter, which is one of 64 bits. -/
def CountsUp (r : Registry) (s : MemoryStore) (name primary : String) (values : Row) : Prop :=
  (∃ reason, insert r s name values = .error reason) ∨
    Assigns r s name primary values ((s.table name).lastKey + 1) ∧
      Signed64 ((s.table name).lastKey + 1)

/-- One of the calls has inserted a row with the key. -/
def Given (r : Registry) (name primary : String) (calls : List Call) (k : Int) : Prop :=
  ∃ done values rest, calls = done ++ .insert name values :: rest ∧
    Assigns r (run r [] done) name primary values k

/-- Wherever the calls insert a row without a key, something holds of the calls before and of the
values. -/
def AtKeyless (e : Entity) (name primary : String) (calls : List Call)
    (P : List Call → Row → Prop) : Prop :=
  ∀ done values rest, calls = done ++ .insert name values :: rest → Keyless e primary values →
    P done values

/-- The largest integer of 64 bits that was given for a key, zero where there is none above. -/
structure LargestGiven (r : Registry) (name primary : String) (calls : List Call) (k : Int) :
    Prop where
  above : ∀ given, Signed64 given → Given r name primary calls given → given ≤ k
  reached : k = 0 ∨ Given r name primary calls k
  signed : Signed64 k

/-- The counter after a call: it stays where no integer of 64 bits is given, moves to the next where
one is counted up, and rises to one that the caller supplies. -/
inductive Moves (r : Registry) (e : Entity) (s : MemoryStore) (name primary : String)
    (call : Call) : Int → Prop
  | stays : (∀ values, call = .insert name values →
        ∀ k, Signed64 k → ¬ Assigns r s name primary values k) →
      Moves r e s name primary call (s.table name).lastKey
  | counts {values : Row} : call = .insert name values → Keyless e primary values →
      Moves r e s name primary call (successor (s.table name).lastKey)
  | rises {values : Row} {k : Int} : call = .insert name values → k < 2 ^ 63 →
      Assigns r s name primary values k →
      Moves r e s name primary call (max (s.table name).lastKey k)

variable {r : Registry} {s : MemoryStore} {name primary : String} {e : Entity}

theorem eq_of_integerKey? {v : Json} {k : Int} (h : integerKey? v = some k) :
    v = .integer k ∧ k < 2 ^ 63 := by
  cases v with
  | number n =>
      cases n with
      | int n =>
          simp only [integerKey?, Number.toInt64?] at h
          split at h
          · rename_i below
            cases h
            exact ⟨rfl, below⟩
          · cases h
      | double d => cases h
  | _ => cases h

/-- The row that is added decides which key is given. -/
theorem assigns_iff_of_addRow (registered : r.get? name = some e) {values row : Row} {last : Int}
    (added : addRow e (s.table name) (declaredValues e values) =
      .ok (row, ⟨(s.table name).rows ++ [row], last⟩)) {k : Int} :
    Assigns r s name primary values k ↔ Json.field row primary = .integer k := by
  have inserted := insert_of_addRow registered added
  have rows : (table (Dict.insert s name ⟨(s.table name).rows ++ [row], last⟩) name).rows =
      (s.table name).rows ++ [row] := by rw [table_insert, if_pos rfl]
  constructor
  · rintro ⟨shown, after, row', inserted', added', found⟩
    cases inserted.symm.trans inserted'
    obtain rfl := List.singleton_inj.mp (List.append_cancel_left (rows.symm.trans added'))
    exact found
  · intro found
    exact ⟨_, _, row, inserted, rows, found⟩

theorem moves_insert (registered : r.get? name = some e) (hprimary : e.primaryField = some primary)
    (values : Row) : Moves r e s name primary (.insert name values)
      ((apply r s (.insert name values)).table name).lastKey := by
  have own : ∀ {p : Row → Prop}, p values →
      ∀ values', Call.insert name values = .insert name values' → p values' := by
    rintro p h values' ⟨⟩
    exact h
  rw [table_apply_insert registered]
  by_cases missing : Keyless e primary values
  · have null := missing
    unfold Keyless at null
    simp only [addRow, hprimary, null, if_true]
    exact .counts rfl missing
  · unfold Keyless at missing
    cases added : addRow e (s.table name) (declaredValues e values) with
    | error reason =>
        refine .stays (own ?_)
        rintro k _ ⟨shown, after, row, inserted, _⟩
        simp only [insert, registered, added] at inserted
        cases inserted
    | ok stored =>
        have kept := added
        simp only [addRow, hprimary, if_neg missing] at kept
        by_cases taken : (s.table name).rows.any
            (hasKey primary (Json.field (declaredValues e values) primary)) = true
        · rw [if_pos taken] at kept
          cases kept
        · rw [if_neg taken] at kept
          cases kept
          have given {k : Int} : Assigns r s name primary values k ↔
              Json.field (declaredValues e values) primary = .integer k :=
            assigns_iff_of_addRow registered added
          cases key : integerKey? (Json.field (declaredValues e values) primary) with
          | none =>
              simp only
              refine .stays (own ?_)
              intro k signed assigned
              rw [given.mp assigned, integerKey?_integer signed] at key
              cases key
          | some k =>
              obtain ⟨found, below⟩ := eq_of_integerKey? key
              exact .rises rfl below (given.mpr found)

/-- Only inserts move the counter. -/
theorem moves_apply (registered : r.get? name = some e) (hprimary : e.primaryField = some primary)
    (call : Call) :
    Moves r e s name primary call ((apply r s call).table name).lastKey := by
  by_cases own : call.entity = name
  · cases call with
    | insert entity values =>
        obtain rfl : entity = name := own
        exact moves_insert registered hprimary values
    | patch entity key values =>
        obtain rfl : entity = name := own
        have same : ((apply r s (.patch entity key values)).table entity).lastKey =
            (s.table entity).lastKey := by
          rw [table_apply_patch registered hprimary]
          split <;> rfl
        exact same ▸ .stays nofun
    | delete entity key =>
        obtain rfl : entity = name := own
        have same : ((apply r s (.delete entity key)).table entity).lastKey =
            (s.table entity).lastKey := by rw [table_apply_delete registered hprimary]
        exact same ▸ .stays nofun
  · rw [table_apply_of_ne own]
    refine .stays ?_
    rintro values rfl
    exact absurd rfl own

theorem signed64_successor {n : Int} (h : Signed64 n) : Signed64 (successor n) := by
  unfold Signed64 successor at *
  split
  · simp at *
    omega
  · simp

theorem lastKey_run_nil : ((run r [] []).table name).lastKey = 0 := rfl

theorem moves_run (registered : r.get? name = some e) (hprimary : e.primaryField = some primary)
    (calls : List Call) (call : Call) :
    Moves r e (run r [] calls) name primary call
      ((run r [] (calls ++ [call])).table name).lastKey := by
  rw [run_append_singleton]
  exact moves_apply registered hprimary call

theorem successor_largest : successor (2 ^ 63 - 1) = -(2 ^ 63) := by decide

/-- Whatever the calls are, the counter is an integer of 64 bits. -/
theorem signed64_lastKey (registered : r.get? name = some e)
    (hprimary : e.primaryField = some primary) (calls : List Call) :
    Signed64 ((run r [] calls).table name).lastKey := by
  induction calls using List.reverseRecOn with
  | nil => exact lastKey_run_nil ▸ ⟨by decide, by decide⟩
  | append_singleton calls call ih =>
      have step := moves_run registered hprimary calls call
      generalize ((run r [] (calls ++ [call])).table name).lastKey = after at step ⊢
      cases step with
      | stays _ => exact ih
      | counts _ _ => exact signed64_successor ih
      | rises _ below _ => exact ⟨le_max_of_le_left ih.1, max_lt ih.2 below⟩

/-- A call stands before the last one or is the last. -/
theorem split_append_singleton {calls done rest : List Call} {last own : Call}
    (split : calls ++ [last] = done ++ own :: rest) :
    (∃ before, rest = before ++ [last] ∧ calls = done ++ own :: before) ∨
      calls = done ∧ last = own ∧ rest = [] := by
  cases rest using List.reverseRecOn with
  | nil =>
      obtain ⟨same, ends⟩ := List.append_inj' split rfl
      exact .inr ⟨same, List.singleton_inj.mp ends, rfl⟩
  | append_singleton before other =>
      rw [← List.cons_append, ← List.append_assoc] at split
      obtain ⟨same, ends⟩ := List.append_inj' split rfl
      exact .inl ⟨before, by rw [List.singleton_inj.mp ends], same⟩

theorem given_append_singleton {calls : List Call} {call : Call} {k : Int} :
    Given r name primary (calls ++ [call]) k ↔ Given r name primary calls k ∨
      ∃ values, call = .insert name values ∧ Assigns r (run r [] calls) name primary values k := by
  constructor
  · rintro ⟨done, values, rest, split, assigned⟩
    obtain ⟨before, rfl, earlier⟩ | ⟨rfl, rfl, rfl⟩ := split_append_singleton split
    · exact .inl ⟨done, values, before, earlier, assigned⟩
    · exact .inr ⟨values, rfl, assigned⟩
  · rintro (⟨done, values, rest, rfl, assigned⟩ | ⟨values, rfl, assigned⟩)
    · exact ⟨done, values, rest ++ [call], by simp, assigned⟩
    · exact ⟨calls, values, [], rfl, assigned⟩

theorem atKeyless_append_singleton {calls : List Call} {call : Call}
    {P : List Call → Row → Prop} :
    AtKeyless e name primary (calls ++ [call]) P ↔ AtKeyless e name primary calls P ∧
      ∀ values, call = .insert name values → Keyless e primary values → P calls values := by
  constructor
  · intro all
    refine ⟨?_, ?_⟩
    · rintro done values rest rfl
      exact all done values (rest ++ [call]) (by simp)
    · rintro values rfl
      exact all calls values [] rfl
  · rintro ⟨earlier, last⟩ done values rest split
    obtain ⟨before, rfl, among⟩ | ⟨rfl, rfl, rfl⟩ := split_append_singleton split
    · exact earlier done values before among
    · exact last values rfl

/-- An insert without a key fails to count up at the largest integer of 64 bits only. -/
theorem countsUp_iff (registered : r.get? name = some e) (hprimary : e.primaryField = some primary)
    {values : Row} (missing : Keyless e primary values) (signed : Signed64 (s.table name).lastKey) :
    CountsUp r s name primary values ↔ (s.table name).lastKey ≠ 2 ^ 63 - 1 := by
  have assigned := assigns_successor (s := s) registered hprimary missing
  constructor
  · rintro (⟨reason, refused⟩ | ⟨_, next⟩)
    · obtain ⟨shown, after, row, inserted, _⟩ := assigned
      cases inserted.symm.trans refused
    · have := next.2
      omega
  · intro short
    have room : (s.table name).lastKey < 2 ^ 63 - 1 := by
      have := signed.2
      omega
    rw [successor_eq room] at assigned
    refine .inr ⟨assigned, ?_⟩
    obtain ⟨least, _⟩ := signed
    exact ⟨by omega, by omega⟩

/-- While every insert without a key counts up, the counter is the largest key that was given. -/
theorem largestGiven_run (registered : r.get? name = some e)
    (hprimary : e.primaryField = some primary) {calls : List Call}
    (counting : AtKeyless e name primary calls fun done =>
      CountsUp r (run r [] done) name primary) :
    LargestGiven r name primary calls ((run r [] calls).table name).lastKey := by
  have signed := signed64_lastKey registered hprimary
  induction calls using List.reverseRecOn with
  | nil =>
      refine ⟨?_, .inl rfl, signed []⟩
      rintro k _ ⟨done, values, rest, split, _⟩
      simp at split
  | append_singleton calls call ih =>
      obtain ⟨earlier, last⟩ := atKeyless_append_singleton.mp counting
      have before := ih earlier
      have here := signed (calls ++ [call])
      have step := moves_run registered hprimary calls call
      generalize ((run r [] (calls ++ [call])).table name).lastKey = after at step here ⊢
      cases step with
      | stays none =>
          refine ⟨?_, before.reached.imp_right fun h => given_append_singleton.mpr (.inl h), here⟩
          intro k signed given
          obtain given | ⟨values, inserts, assigned⟩ := given_append_singleton.mp given
          · exact before.above k signed given
          · exact absurd assigned (none values inserts k signed)
      | @counts values inserts missing =>
          have short := (countsUp_iff registered hprimary missing before.signed).mp
            (last values inserts missing)
          have room : ((run r [] calls).table name).lastKey < 2 ^ 63 - 1 := by
            have := before.signed.2
            omega
          have assigned := assigns_successor (s := run r [] calls) registered hprimary missing
          rw [successor_eq room] at assigned here ⊢
          refine ⟨?_, .inr (given_append_singleton.mpr (.inr ⟨values, inserts, assigned⟩)), here⟩
          intro k signed given
          obtain given | ⟨values', inserts', assigned'⟩ := given_append_singleton.mp given
          · exact Int.le_trans (before.above k signed given) (by omega)
          · cases inserts.symm.trans inserts'
            exact (assigned'.unique assigned).le
      | @rises values own inserts _ assigned =>
          refine ⟨?_, ?_, here⟩
          · intro k signed given
            obtain given | ⟨values', inserts', assigned'⟩ := given_append_singleton.mp given
            · exact le_max_of_le_left (before.above k signed given)
            · cases inserts.symm.trans inserts'
              exact le_max_of_le_right (assigned'.unique assigned).le
          · obtain same | same := max_choice ((run r [] calls).table name).lastKey own
            · rw [same]
              exact before.reached.imp_right fun h => given_append_singleton.mpr (.inl h)
            · rw [same]
              exact .inr (given_append_singleton.mpr (.inr ⟨values, inserts, assigned⟩))

theorem LargestGiven.largest_iff {calls : List Call} {k : Int}
    (h : LargestGiven r name primary calls k) :
    k = 2 ^ 63 - 1 ↔ Given r name primary calls (2 ^ 63 - 1) := by
  constructor
  · rintro rfl
    exact h.reached.resolve_left (by decide)
  · intro given
    have atLeast := h.above _ ⟨by decide, by decide⟩ given
    have := h.signed.2
    omega

/-- In every state an insert without a key succeeds, and is given the integer after the counter, but
for the largest of 64 bits, after which it is the smallest. All inserts of a run without a key are
given the integer after the counter exactly when no row was given the largest before any of them. -/
theorem keys_counted (registered : r.get? name = some e) (hprimary : e.primaryField = some primary)
    (calls : List Call) :
    Signed64 ((run r [] calls).table name).lastKey ∧
    (∀ values, Keyless e primary values → Assigns r (run r [] calls) name primary values
      (if ((run r [] calls).table name).lastKey = 2 ^ 63 - 1 then -(2 ^ 63)
        else ((run r [] calls).table name).lastKey + 1)) ∧
    (AtKeyless e name primary calls (fun done => CountsUp r (run r [] done) name primary) ↔
      AtKeyless e name primary calls fun done _ => ¬ Given r name primary done (2 ^ 63 - 1)) := by
  refine ⟨signed64_lastKey registered hprimary calls, ?_, ?_⟩
  · intro values missing
    have assigned := assigns_successor (s := run r [] calls) registered hprimary missing
    have signed := signed64_lastKey registered hprimary calls
    generalize ((run r [] calls).table name).lastKey = last at assigned signed ⊢
    split
    · rename_i largest
      rwa [largest, successor_largest] at assigned
    · have room : last < 2 ^ 63 - 1 := by
        have := signed.2
        omega
      rwa [successor_eq room] at assigned
  · induction calls using List.reverseRecOn with
    | nil => simp [AtKeyless]
    | append_singleton calls call ih =>
        rw [atKeyless_append_singleton, atKeyless_append_singleton, ← ih]
        refine and_congr_right fun counting => ?_
        have largest := largestGiven_run registered hprimary counting
        refine forall₃_congr fun values inserts missing => ?_
        rw [countsUp_iff registered hprimary missing largest.signed, ne_eq, largest.largest_iff]

end MemoryStore

namespace Catalog
open MemoryStore

/-- A category under the largest key of 64 bits. -/
def atLargest : MemoryStore :=
  run registry [] [.insert "Category" [("id", .integer (2 ^ 63 - 1)), ("name", .string "Systems")]]

/-- The key after the largest is the smallest. -/
theorem smallest_after_largest :
    Keyless category "id" [("name", .string "Web")] ∧
    Assigns registry atLargest "Category" "id" [("name", .string "Web")] (-(2 ^ 63)) ∧
    ¬ CountsUp registry atLargest "Category" "id" [("name", .string "Web")] := by
  have missing : Keyless category "id" [("name", .string "Web")] := rfl
  have counter : (atLargest.table "Category").lastKey = 2 ^ 63 - 1 := rfl
  have signed : Signed64 (atLargest.table "Category").lastKey := signed64_lastKey rfl rfl _
  have assigned : Assigns registry atLargest "Category" "id" _ _ :=
    assigns_successor rfl rfl missing
  rw [counter, successor_largest] at assigned
  refine ⟨missing, assigned, fun counts => ?_⟩
  exact (countsUp_iff rfl rfl missing signed).mp counts counter

/-- The keys of the caller count as well, also those that were deleted or refused. -/
theorem keys_counted_overtaking :
    registry.get? "Category" = some category ∧ category.primaryField = some "id" ∧
    Keyless category "id" [] ∧
    Assigns registry (run registry [] overtaking) "Category" "id" [] 12 := by
  have counter : ((run registry [] overtaking).table "Category").lastKey = 11 := by decide +kernel
  have assigned : Assigns registry (run registry [] overtaking) "Category" "id" [] _ :=
    (keys_counted (e := category) rfl rfl overtaking).2.1 [] rfl
  rw [counter] at assigned
  exact ⟨rfl, rfl, rfl, assigned⟩

end Catalog
end EntityGraph
