import Mathlib.Data.Finmap
import Mathlib.Data.Finset.Sort
import Mathlib.Logic.Function.Basic

/-!
# A typed keyspace with hash and set commands

Every key holds at most one value, and a value has one type. A hash or a set
that loses its last entry vanishes with its key, so the two value types carry a
proof that they are not empty. A command issued on a key of another type
returns an error reply and changes nothing.

## Implementation notes

Hashes and sets have no order of their own. A command that lists one takes the
order as an `Enumeration`, which may be any listing without repetitions; a
different call may use a different one.
-/

namespace RedisS2Geo.Foundation

/-- A value of one key. Strings, lists and the remaining types are kept as their
type name and their serialised payload: no hash or set command looks inside. -/
inductive Value (α : Type*) where
  | hash (fields : Finmap fun _ : α => α) (nonempty : fields ≠ ∅)
  | set (members : Finset α) (nonempty : members ≠ ∅)
  | other (type payload : α)

/-- The whole database; `none` marks an absent key. -/
abbrev Keyspace (α : Type*) := α → Option (Value α)

/-- The reply of one command. The items of an array are strings or nulls. -/
inductive CallReply (α : Type*) where
  | nil
  | string (s : α)
  | integer (n : Int)
  | array (items : List (Option α))
  | error (text : String)
  deriving DecidableEq

/-- The text of the error reply for a key of the wrong type. -/
def wrongType : String := "WRONGTYPE Operation against a key holding the wrong kind of value"

/-- One way to list every finite set without repetitions. -/
structure Enumeration (α : Type*) where
  list : Finset α → List α
  nodup : ∀ s, (list s).Nodup
  mem_list : ∀ s a, a ∈ list s ↔ a ∈ s

attribute [simp] Enumeration.mem_list

/-- The listing in ascending order. -/
def Enumeration.sorted {α : Type*} [LinearOrder α] : Enumeration α where
  list s := s.sort
  nodup s := s.sort_nodup _
  mem_list s _ := s.mem_sort _

variable {α : Type*}

/-! ### Values as hashes and as sets -/

/-- The hash at a key, empty for an absent key; `none` when the type is another one. -/
def asHash : Option (Value α) → Option (Finmap fun _ : α => α)
  | none => some ∅
  | some (.hash fields _) => some fields
  | some _ => none

/-- The set at a key, empty for an absent key; `none` when the type is another one. -/
def asSet : Option (Value α) → Option (Finset α)
  | none => some ∅
  | some (.set members _) => some members
  | some _ => none

@[simp] theorem asHash_none : asHash (none : Option (Value α)) = some ∅ := rfl

@[simp] theorem asSet_none : asSet (none : Option (Value α)) = some ∅ := rfl

variable [DecidableEq α]

/-- Erasing an absent key changes nothing. -/
theorem finmap_erase_of_notMem {β : α → Type*} {m : Finmap β} {a : α} (h : a ∉ m) :
    m.erase a = m := by
  apply Finmap.ext_lookup
  intro b
  by_cases hb : b = a
  · subst hb
    rw [Finmap.lookup_erase, Finmap.lookup_eq_none.mpr h]
  · exact Finmap.lookup_erase_ne hb

/-- Store a hash: the empty one removes the key. -/
def ofHash (fields : Finmap fun _ : α => α) : Option (Value α) :=
  if h : fields = ∅ then none else some (.hash fields h)

/-- Store a set: the empty one removes the key. -/
def ofSet (members : Finset α) : Option (Value α) :=
  if h : members = ∅ then none else some (.set members h)

@[simp] theorem asHash_ofHash (fields : Finmap fun _ : α => α) :
    asHash (ofHash fields) = some fields := by
  by_cases h : fields = ∅ <;> simp [ofHash, h, asHash]

@[simp] theorem asSet_ofSet (members : Finset α) : asSet (ofSet members) = some members := by
  by_cases h : members = ∅ <;> simp [ofSet, h, asSet]

@[simp] theorem ofHash_empty : ofHash (∅ : Finmap fun _ : α => α) = none := by simp [ofHash]

@[simp] theorem ofSet_empty : ofSet (∅ : Finset α) = none := by simp [ofSet]

/-- A value of hash type is the stored form of its hash. -/
theorem asHash_eq_some_iff {v : Option (Value α)} {fields : Finmap fun _ : α => α} :
    asHash v = some fields ↔ v = ofHash fields := by
  constructor
  · intro h
    rcases v with _ | ⟨f, hf⟩ | ⟨s, hs⟩ | ⟨t, p⟩ <;> simp_all [asHash, ofHash, eq_comm]
  · rintro rfl
    simp

/-- A value of set type is the stored form of its set. -/
theorem asSet_eq_some_iff {v : Option (Value α)} {members : Finset α} :
    asSet v = some members ↔ v = ofSet members := by
  constructor
  · intro h
    rcases v with _ | ⟨f, hf⟩ | ⟨s, hs⟩ | ⟨t, p⟩ <;> simp_all [asSet, ofSet, eq_comm]
  · rintro rfl
    simp

/-! ### What the writing commands do to one value -/

/-- The value after writing one field; a value of another type stays. -/
def putField (field value : α) (v : Option (Value α)) : Option (Value α) :=
  (asHash v).elim v fun fields => ofHash (fields.insert field value)

/-- The value after deleting one field; a value of another type stays. -/
def dropField (field : α) (v : Option (Value α)) : Option (Value α) :=
  (asHash v).elim v fun fields => ofHash (fields.erase field)

/-- The value after adding members; a value of another type stays. -/
def addMembers (members : Finset α) (v : Option (Value α)) : Option (Value α) :=
  (asSet v).elim v fun s => ofSet (s ∪ members)

/-- The value after removing one member; a value of another type stays. -/
def dropMember (member : α) (v : Option (Value α)) : Option (Value α) :=
  (asSet v).elim v fun s => ofSet (s.erase member)

@[simp] theorem putField_ofHash (field value : α) (fields : Finmap fun _ : α => α) :
    putField field value (ofHash fields) = ofHash (fields.insert field value) := by
  simp [putField]

@[simp] theorem dropField_ofHash (field : α) (fields : Finmap fun _ : α => α) :
    dropField field (ofHash fields) = ofHash (fields.erase field) := by
  simp [dropField]

@[simp] theorem addMembers_ofSet (members s : Finset α) :
    addMembers members (ofSet s) = ofSet (s ∪ members) := by
  simp [addMembers]

@[simp] theorem dropMember_ofSet (member : α) (s : Finset α) :
    dropMember member (ofSet s) = ofSet (s.erase member) := by
  simp [dropMember]

@[simp] theorem addMembers_none (members : Finset α) :
    addMembers members none = ofSet members := by
  simp [addMembers]

/-- An update of a hash is seen by the next reader; a value of another type stays one. -/
theorem asHash_elim_ofHash (f : (Finmap fun _ : α => α) → Finmap fun _ : α => α)
    (v : Option (Value α)) :
    asHash ((asHash v).elim v fun fields => ofHash (f fields)) = (asHash v).map f := by
  cases h : asHash v with
  | none => exact h
  | some fields => exact asHash_ofHash (f fields)

/-- An update of a set is seen by the next reader; a value of another type stays one. -/
theorem asSet_elim_ofSet (f : Finset α → Finset α) (v : Option (Value α)) :
    asSet ((asSet v).elim v fun s => ofSet (f s)) = (asSet v).map f := by
  cases h : asSet v with
  | none => exact h
  | some s => exact asSet_ofSet (f s)

theorem asHash_putField (field value : α) (v : Option (Value α)) :
    asHash (putField field value v) = (asHash v).map fun fields => fields.insert field value :=
  asHash_elim_ofHash _ v

theorem asHash_dropField (field : α) (v : Option (Value α)) :
    asHash (dropField field v) = (asHash v).map fun fields => fields.erase field :=
  asHash_elim_ofHash _ v

theorem asSet_addMembers (members : Finset α) (v : Option (Value α)) :
    asSet (addMembers members v) = (asSet v).map fun s => s ∪ members :=
  asSet_elim_ofSet _ v

theorem asSet_dropMember (member : α) (v : Option (Value α)) :
    asSet (dropMember member v) = (asSet v).map fun s => s.erase member :=
  asSet_elim_ofSet _ v

/-- Adding a member twice adds it once. -/
theorem addMembers_addMembers (members : Finset α) (v : Option (Value α)) :
    addMembers members (addMembers members v) = addMembers members v := by
  cases h : asSet v with
  | none => simp [addMembers, h]
  | some s => simp [asSet_eq_some_iff.mp h, Finset.union_assoc]

/-- Removing a member twice removes it once. -/
theorem dropMember_dropMember (member : α) (v : Option (Value α)) :
    dropMember member (dropMember member v) = dropMember member v := by
  cases h : asSet v with
  | none => simp [dropMember, h]
  | some s => simp [asSet_eq_some_iff.mp h]

/-- Removing a member that was not there before undoes adding it. -/
theorem dropMember_addMembers {member : α} {v : Option (Value α)}
    (h : ∀ s, asSet v = some s → member ∉ s) :
    dropMember member (addMembers {member} v) = v := by
  cases hv : asSet v with
  | none => simp [addMembers, dropMember, hv]
  | some s =>
      obtain rfl := asSet_eq_some_iff.mp hv
      rw [addMembers_ofSet, dropMember_ofSet, Finset.union_comm, ← Finset.insert_eq,
        Finset.erase_insert (h s hv)]

/-! ### The same update at many keys -/

/-- Add one member to the sets at some keys. -/
def addToSets (keys : Finset α) (member : α) (K : Keyspace α) : Keyspace α := fun key =>
  if key ∈ keys then addMembers {member} (K key) else K key

/-- Remove one member from the sets at some keys. -/
def dropFromSets (keys : Finset α) (member : α) (K : Keyspace α) : Keyspace α := fun key =>
  if key ∈ keys then dropMember member (K key) else K key

@[simp] theorem addToSets_empty (member : α) (K : Keyspace α) : addToSets ∅ member K = K := by
  funext key
  simp [addToSets]

@[simp] theorem dropFromSets_empty (member : α) (K : Keyspace α) :
    dropFromSets ∅ member K = K := by
  funext key
  simp [dropFromSets]

theorem addToSets_update (keys : Finset α) (member key : α) (K : Keyspace α) :
    addToSets keys member (Function.update K key (addMembers {member} (K key))) =
      addToSets (insert key keys) member K := by
  funext k
  by_cases hk : k = key
  · subst hk
    simp [addToSets, addMembers_addMembers]
  · simp [addToSets, hk]

theorem dropFromSets_update (keys : Finset α) (member key : α) (K : Keyspace α) :
    dropFromSets keys member (Function.update K key (dropMember member (K key))) =
      dropFromSets (insert key keys) member K := by
  funext k
  by_cases hk : k = key
  · subst hk
    simp [dropFromSets, dropMember_dropMember]
  · simp [dropFromSets, hk]

/-- Removing a new member from the sets at some keys undoes adding it there. -/
theorem dropFromSets_addToSets {keys : Finset α} {member : α} {K : Keyspace α}
    (h : ∀ key ∈ keys, ∀ s, asSet (K key) = some s → member ∉ s) :
    dropFromSets keys member (addToSets keys member K) = K := by
  funext key
  by_cases hk : key ∈ keys
  · simp only [dropFromSets, addToSets, if_pos hk]
    exact dropMember_addMembers (h key hk)
  · simp only [dropFromSets, addToSets, if_neg hk]

/-- Adding to sets commutes with a write to any other key. -/
theorem update_addToSets {keys : Finset α} {key : α} (hk : key ∉ keys) (member : α)
    (K : Keyspace α) (v : Option (Value α)) :
    Function.update (addToSets keys member K) key v =
      addToSets keys member (Function.update K key v) := by
  funext k
  by_cases he : k = key
  · subst he
    simp [addToSets, hk]
  · simp [addToSets, he]

/-! ### Commands -/

/-- A command reads the keyspace and returns a reply with the next keyspace. -/
abbrev Call (α : Type*) := Keyspace α → CallReply α × Keyspace α

/-- `HGET key field`. -/
def hget (key field : α) : Call α := fun K =>
  match asHash (K key) with
  | none => (.error wrongType, K)
  | some fields =>
      match fields.lookup field with
      | none => (.nil, K)
      | some value => (.string value, K)

/-- `HMGET key field ...`: one item for each requested field, in order. -/
def hmget (key : α) (fields : List α) : Call α := fun K =>
  match asHash (K key) with
  | none => (.error wrongType, K)
  | some hash => (.array (fields.map fun field => hash.lookup field), K)

/-- `HKEYS key`. -/
def hkeys (order : Enumeration α) (key : α) : Call α := fun K =>
  match asHash (K key) with
  | none => (.error wrongType, K)
  | some fields => (.array ((order.list fields.keys).map some), K)

/-- `HSET key field value` replies with the number of new fields. -/
def hset (key field value : α) : Call α := fun K =>
  match asHash (K key) with
  | none => (.error wrongType, K)
  | some fields =>
      (.integer (if field ∈ fields then 0 else 1),
        Function.update K key (ofHash (fields.insert field value)))

/-- `HDEL key field` replies with the number of deleted fields. -/
def hdel (key field : α) : Call α := fun K =>
  match asHash (K key) with
  | none => (.error wrongType, K)
  | some fields =>
      (.integer (if field ∈ fields then 1 else 0),
        Function.update K key (ofHash (fields.erase field)))

/-- `DEL key` works on every type. -/
def del (key : α) : Call α := fun K =>
  (.integer (if (K key).isSome then 1 else 0), Function.update K key none)

/-- `SADD key member ...` replies with the number of new members. -/
def sadd (key : α) (members : List α) : Call α := fun K =>
  match asSet (K key) with
  | none => (.error wrongType, K)
  | some s =>
      (.integer (members.toFinset \ s).card, Function.update K key (ofSet (s ∪ members.toFinset)))

/-- `SREM key member` replies with the number of removed members. -/
def srem (key member : α) : Call α := fun K =>
  match asSet (K key) with
  | none => (.error wrongType, K)
  | some s =>
      (.integer (if member ∈ s then 1 else 0), Function.update K key (ofSet (s.erase member)))

/-- `SMEMBERS key`. -/
def smembers (order : Enumeration α) (key : α) : Call α := fun K =>
  match asSet (K key) with
  | none => (.error wrongType, K)
  | some s => (.array ((order.list s).map some), K)

/-- The union of the sets at some keys, unless one of them has another type. -/
def unionAt (K : Keyspace α) : List α → Option (Finset α)
  | [] => some ∅
  | key :: rest =>
      match asSet (K key), unionAt K rest with
      | some s, some t => some (s ∪ t)
      | _, _ => none

/-- `SUNION key ...`. -/
def sunion (order : Enumeration α) (keys : List α) : Call α := fun K =>
  match unionAt K keys with
  | none => (.error wrongType, K)
  | some s => (.array ((order.list s).map some), K)

/-! ### The keyspace after a command -/

@[simp] theorem hget_snd (key field : α) (K : Keyspace α) : (hget key field K).2 = K := by
  unfold hget
  split
  · rfl
  · split <;> rfl

@[simp] theorem hmget_snd (key : α) (fields : List α) (K : Keyspace α) :
    (hmget key fields K).2 = K := by
  unfold hmget
  split <;> rfl

omit [DecidableEq α] in
@[simp] theorem hkeys_snd (order : Enumeration α) (key : α) (K : Keyspace α) :
    (hkeys order key K).2 = K := by
  unfold hkeys
  split <;> rfl

omit [DecidableEq α] in
@[simp] theorem smembers_snd (order : Enumeration α) (key : α) (K : Keyspace α) :
    (smembers order key K).2 = K := by
  unfold smembers
  split <;> rfl

@[simp] theorem sunion_snd (order : Enumeration α) (keys : List α) (K : Keyspace α) :
    (sunion order keys K).2 = K := by
  unfold sunion
  split <;> rfl

@[simp] theorem hset_snd (key field value : α) (K : Keyspace α) :
    (hset key field value K).2 = Function.update K key (putField field value (K key)) := by
  unfold hset putField
  split <;> simp_all

@[simp] theorem hdel_snd (key field : α) (K : Keyspace α) :
    (hdel key field K).2 = Function.update K key (dropField field (K key)) := by
  unfold hdel dropField
  split <;> simp_all

@[simp] theorem del_snd (key : α) (K : Keyspace α) :
    (del key K).2 = Function.update K key none := rfl

@[simp] theorem sadd_snd (key : α) (members : List α) (K : Keyspace α) :
    (sadd key members K).2 = Function.update K key (addMembers members.toFinset (K key)) := by
  unfold sadd addMembers
  split <;> simp_all

@[simp] theorem srem_snd (key member : α) (K : Keyspace α) :
    (srem key member K).2 = Function.update K key (dropMember member (K key)) := by
  unfold srem dropMember
  split <;> simp_all

/-- When every key holds a set, the union is defined and has exactly their members. -/
theorem unionAt_eq_some (K : Keyspace α) (keys : List α)
    (h : ∀ key ∈ keys, asSet (K key) ≠ none) :
    ∃ s, unionAt K keys = some s ∧
      ∀ a, a ∈ s ↔ ∃ key ∈ keys, ∃ t, asSet (K key) = some t ∧ a ∈ t := by
  induction keys with
  | nil => exact ⟨∅, rfl, by simp⟩
  | cons key rest ih =>
      obtain ⟨t, ht⟩ := Option.ne_none_iff_exists'.mp (h key (by simp))
      obtain ⟨s, hs, hmem⟩ := ih fun k hk => h k (by simp [hk])
      refine ⟨t ∪ s, by simp [unionAt, ht, hs], fun a => ?_⟩
      simp [hmem, ht]

/-- Membership in a union is decided by the memberships in its sets. -/
theorem map_mem_unionAt_cons (K : Keyspace α) (key : α) (rest : List α) (a : α) :
    (unionAt K (key :: rest)).map (fun s => decide (a ∈ s)) =
      ((asSet (K key)).map fun s => decide (a ∈ s)).bind fun found =>
        ((unionAt K rest).map fun s => decide (a ∈ s)).map fun found' => found || found' := by
  rw [unionAt]
  cases asSet (K key) with
  | none => rfl
  | some s =>
      cases unionAt K rest with
      | none => rfl
      | some t => simp

/-- Sets that agree on one member have unions that agree on it. -/
theorem map_mem_unionAt_congr {K K' : Keyspace α} {keys : List α} {a : α}
    (h : ∀ key ∈ keys, (asSet (K' key)).map (fun s => decide (a ∈ s)) =
      (asSet (K key)).map fun s => decide (a ∈ s)) :
    (unionAt K' keys).map (fun s => decide (a ∈ s)) =
      (unionAt K keys).map fun s => decide (a ∈ s) := by
  induction keys with
  | nil => rfl
  | cons key rest ih =>
      have hkey := h key (by simp)
      have hrest := ih fun k hk => h k (List.mem_cons_of_mem _ hk)
      rw [map_mem_unionAt_cons, map_mem_unionAt_cons, hkey, hrest]

end RedisS2Geo.Foundation
