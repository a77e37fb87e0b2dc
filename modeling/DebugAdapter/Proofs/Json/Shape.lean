import DebugAdapter.Json.Shape

/-! What is known of a value once it is read. What every field of a record keeps holds of the
record, whatever the form and the order in which the fields are given. -/
namespace DebugAdapter.Json

variable {σ α β ε : Type} {P : σ → Prop}

theorem bind_eq_ok {first : Except ε α} {stage : α → Except ε β} {result : β} :
    first >>= stage = .ok result ↔ ∃ value, first = .ok value ∧ stage value = .ok result := by
  cases first with
  | error error => exact ⟨nofun, nofun⟩
  | ok value => exact ⟨fun done => ⟨value, rfl, done⟩, fun ⟨_, rfl, done⟩ => done⟩

theorem map_eq_ok {outcome : Except ε α} {f : α → β} {result : β}
    (mapped : outcome.map f = .ok result) : ∃ value, outcome = .ok value ∧ f value = result := by
  cases outcome with
  | error error => contradiction
  | ok value => exact ⟨value, rfl, Except.ok.inj mapped⟩

/-- A list is read if all its items are, and then each is what its item is read as. -/
theorem mapM_eq_ok {f : α → Except ε β} {xs : List α} {ys : List β} :
    xs.mapM f = .ok ys ↔
      (∀ x ∈ xs, ∃ y, f x = .ok y) ∧ ys = xs.filterMap fun x => (f x).toOption := by
  induction xs generalizing ys with
  | nil => simp [pure, Except.pure, eq_comm]
  | cons x rest ih =>
    rw [List.mapM_cons, bind_eq_ok]
    simp only [bind_eq_ok, ih, List.forall_mem_cons]
    constructor
    · rintro ⟨y, first, later, ⟨total, rfl⟩, made⟩
      cases made
      exact ⟨⟨⟨y, first⟩, total⟩, by rw [List.filterMap_cons, first]; rfl⟩
    · rintro ⟨⟨⟨y, first⟩, total⟩, rfl⟩
      refine ⟨y, first, _, ⟨total, rfl⟩, ?_⟩
      rw [List.filterMap_cons, first]
      rfl

theorem mem_mapM {f : α → Except ε β} {xs : List α} {ys : List β} (found : xs.mapM f = .ok ys) :
    ∀ y ∈ ys, ∃ x ∈ xs, f x = .ok y := by
  obtain ⟨-, rfl⟩ := mapM_eq_ok.mp found
  intro y member
  obtain ⟨x, given, same⟩ := List.mem_filterMap.mp member
  cases read : f x with
  | error error => simp [read, Except.toOption] at same
  | ok value =>
    obtain rfl : value = y := by simpa [read, Except.toOption] using same
    exact ⟨x, given, read⟩

theorem readU32_lt {json : Json} {n : Nat} (found : readU32 json = .ok n) : n < Word.limit32 := by
  obtain ⟨value, whole, rfl⟩ := map_eq_ok found
  unfold readInt at whole
  split at whole
  · split at whole
    · cases whole
      omega
    · contradiction
  · contradiction

theorem mem_readList {read : Reader α} {json : Json} {values : List α}
    (found : readList read json = .ok values) :
    ∀ value ∈ values, ∃ item, read item = .ok value := by
  cases json with
  | array items =>
    intro value member
    obtain ⟨item, -, read⟩ := mem_mapM found value member
    exact ⟨item, read⟩
  | null | bool | number | string | object => contradiction

/-- To set the field keeps a property of the record. -/
def Field.Keeps (field : Field σ) (P : σ → Prop) : Prop :=
  ∀ s value next, P s → field.set s value = .ok next → P next

theorem Field.keeps_required {name : String} {read : Reader α} {set : σ → α → σ}
    (kept : ∀ s value a, P s → read value = .ok a → P (set s a)) :
    (Field.required name read set).Keeps P := by
  intro s value next holds stored
  obtain ⟨a, found, rfl⟩ := map_eq_ok stored
  exact kept s value a holds found

theorem Field.keeps_option {name : String} {read : Reader α} {set : σ → Option α → σ}
    (absent : ∀ s, P s → P (set s none))
    (kept : ∀ s value a, P s → read value = .ok a → P (set s (some a))) :
    (Field.option name read set).Keeps P := by
  intro s value next holds stored
  obtain ⟨a?, found, rfl⟩ := map_eq_ok stored
  unfold readOption at found
  split at found
  · cases found
    exact absent s holds
  · obtain ⟨a, present, rfl⟩ := map_eq_ok found
    exact kept s value a holds present

namespace Record

variable {record : Record σ}

theorem readItems_keeps {fields : List (Field σ)} (keeps : ∀ field ∈ fields, field.Keeps P)
    {total n : Nat} {s last : σ} {items : List Json} (holds : P s)
    (done : record.readItems total fields n s items = .ok last) : P last := by
  induction fields generalizing n s items with
  | nil =>
    obtain ⟨_, _, made⟩ := bind_eq_ok.mp done
    cases made
    exact holds
  | cons field rest ih =>
    obtain ⟨first, later⟩ := List.forall_mem_cons.mp keeps
    cases items with
    | nil =>
      simp only [readItems] at done
      split at done
      · exact ih later holds done
      · contradiction
    | cons item items =>
      obtain ⟨next, stored, done⟩ := bind_eq_ok.mp done
      exact ih later (first s item next holds stored) done

theorem setMember_keeps (keeps : ∀ field ∈ record.fields, field.Keeps P) {s next : σ}
    {key : String} {value : Json} (holds : P s)
    (stored : record.setMember s key value = .ok next) : P next := by
  unfold setMember at stored
  split at stored
  · rename_i field found
    exact keeps field (List.mem_of_find?_eq_some found) s value next holds stored
  · cases stored
    exact holds

theorem setMembers_keeps (keeps : ∀ field ∈ record.fields, field.Keeps P) {members : Members}
    {s last : σ} (holds : P s)
    (done : members.foldlM (fun s (key, value) => record.setMember s key value) s = .ok last) :
    P last := by
  induction members generalizing s with
  | nil => cases done; exact holds
  | cons member rest ih =>
    obtain ⟨next, stored, done⟩ := bind_eq_ok.mp (List.foldlM_cons.symm.trans done)
    exact ih (setMember_keeps keeps holds stored) done

/-- What holds at the start and is kept by every field holds of what is read. -/
theorem read_keeps (keeps : ∀ field ∈ record.fields, field.Keeps P) (start : P record.start)
    {json : Json} {last : σ} (done : record.read json = .ok last) : P last := by
  cases json with
  | object members =>
    obtain ⟨s, folded, done⟩ := bind_eq_ok.mp done
    split at done
    · contradiction
    · cases done
      exact setMembers_keeps keeps start folded
  | array items => exact readItems_keeps keeps start done
  | null | bool | number | string => contradiction

end Record

end DebugAdapter.Json
