import RedisS2Geo.Store.Calls

/-!
# Every command stays within its index

A command reads and writes keys of its own index only, on every keyspace and with
every argument. The index is the C string of the name, so that this separates two
index names exactly when they differ before their first zero byte.
-/

namespace RedisS2Geo.Store
open Foundation Source

/-- The keys of one index. -/
def region (n : Bytes) : Set Bytes := {key | ∃ k : StoreKey, k.index = n ∧ key = k.bytes}

theorem bytes_mem_region (k : StoreKey) : k.bytes ∈ region k.index := ⟨k, rfl, rfl⟩

/-- Indexes with different names without a delimiter have no key in common. -/
theorem disjoint_region {n n' : Bytes} (hn : entityDelim ∉ n) (hn' : entityDelim ∉ n')
    (h : n ≠ n') : Disjoint (region n) (region n') := by
  rw [Set.disjoint_left]
  rintro key ⟨k, rfl, rfl⟩ ⟨k', rfl, he⟩
  exact h (congrArg StoreKey.index ((StoreKey.bytes_inj hn hn').mp he))

/-- Every call of a command is on keys of the index it names. -/
theorem ModuleCall.isLocal {env : Environment} {c : Command} {indexName : Bytes}
    {call : Call Bytes} (h : ModuleCall env c indexName call) :
    Local (region (cString indexName)) (redisModuleCall call) := by
  have hinfo := bytes_mem_region (.info (cString indexName))
  have hpolygons := bytes_mem_region (.polygons (cString indexName))
  have hcells := fun t => bytes_mem_region (.cells (cString indexName) (cString t))
  have hcellinfo := fun p => bytes_mem_region (.cellinfo (cString indexName) (cString p))
  cases h with
  | readMarker field => exact (onKey_hget _ field).isLocal hinfo
  | writeMarker => exact (onKey_hset _ _ _).isLocal hinfo
  | deleteMarker => exact (onKey_del _).isLocal hinfo
  | listNames order => exact (onKey_hkeys order _).isLocal hpolygons
  | readBody p => exact (onKey_hget _ p).isLocal hpolygons
  | readBodies ps => exact (onKey_hmget _ ps).isLocal hpolygons
  | storeBody => exact (onKey_hset _ _ _).isLocal hpolygons
  | deleteBody p => exact (onKey_hdel _ p).isLocal hpolygons
  | addTerms p cells => exact (onKey_sadd _ cells).isLocal (hcellinfo p)
  | readTerms order p => exact (onKey_smembers order _).isLocal (hcellinfo p)
  | deleteTerms p => exact (onKey_del _).isLocal (hcellinfo p)
  | addToCell t p => exact (onKey_sadd _ [p]).isLocal (hcells t)
  | removeFromCell t p => exact (onKey_srem _ p).isLocal (hcells t)
  | searchCells order cells =>
      apply isLocal_sunion order
      intro key hkey
      obtain ⟨t, -, rfl⟩ := List.mem_map.mp hkey
      exact hcells t

/-- Every command, with whatever arguments, is local to the index it names. -/
theorem local_exec (env : Environment) (ω : Orders) (indexName : Bytes) {c : Command}
    (hi : c.args.head? = some indexName) :
    Local (region (cString indexName)) (exec env ω c) :=
  holds_exec ω hi ⟨sequential_local _, ModuleCall.isLocal⟩

end RedisS2Geo.Store
