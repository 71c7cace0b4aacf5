import RedisS2Geo.Store.Runs
import Mathlib.Data.Set.Function
import Mathlib.Data.Set.Prod
import Mathlib.Order.CompletePartialOrder

/-!
# The keys of all indexes

All indexes write their keys into the one flat namespace of the server. A printed key
still tells its kind and the arguments it was printed from, and the key a term is stored
under is the key it is looked up with.

## Implementation notes

A function of the source that prints a key is compared with the key it prints, for the
arguments it is called with. Two such functions then agree where the keys do.
-/

namespace RedisS2Geo.Guarantees
open Foundation Source Covering Store

/-- The names that keys are made of. -/
def plainNames : Set Bytes := {name | PlainName name}

/-! ### Printing -/

section Printing
variable {α β : Type*} {print : α → Bytes} {print' : β → Bytes}
variable {key : α → StoreKey} {key' : β → StoreKey} {s : Set α} {s' : Set β}

/-- On these arguments the function prints the key of its argument. -/
def Prints (print : α → Bytes) (key : α → StoreKey) (s : Set α) : Prop :=
  ∀ a ∈ s, (key a).WellFormed ∧ print a = (key a).bytes

/-- Two functions print the same bytes exactly where they print the same key. -/
theorem Prints.eq_iff (h : Prints print key s) (h' : Prints print' key' s') {a : α} {b : β}
    (ha : a ∈ s) (hb : b ∈ s') : print a = print' b ↔ key a = key' b := by
  obtain ⟨hwf, hprint⟩ := h a ha
  obtain ⟨hwf', hprint'⟩ := h' b hb
  rw [hprint, hprint', StoreKey.bytes_inj hwf hwf']

/-- A function that prints different keys for different arguments is injective. -/
theorem Prints.injOn (h : Prints print key s) (hkey : Function.Injective key) :
    Set.InjOn print s := by
  intro a ha b hb hab
  exact hkey ((h.eq_iff h ha hb).mp hab)

/-- The well-formed keys of one kind, as Redis sees them. -/
def bytesOfKind (kind : KeyKind) : Set Bytes :=
  StoreKey.bytes '' {k | k.WellFormed ∧ k.kind = kind}

/-- What is printed for keys of one kind are keys of this kind. -/
theorem Prints.image_subset (h : Prints print key s) {kind : KeyKind}
    (hkind : ∀ a, (key a).kind = kind) : print '' s ⊆ bytesOfKind kind := by
  rintro _ ⟨a, ha, rfl⟩
  obtain ⟨hwf, hprint⟩ := h a ha
  exact ⟨key a, ⟨hwf, hkind a⟩, hprint.symm⟩

/-- Keys of different kinds are printed differently, whatever their indexes are. -/
theorem bytesOfKind_disjoint {kind kind' : KeyKind} (hne : kind ≠ kind') :
    Disjoint (bytesOfKind kind) (bytesOfKind kind') := by
  rw [Set.disjoint_left]
  rintro _ ⟨k, ⟨hwf, rfl⟩, rfl⟩ ⟨k', ⟨hwf', rfl⟩, hbytes⟩
  have hk : k' = k := (StoreKey.bytes_inj hwf' hwf).mp hbytes
  exact hne (hk ▸ rfl)

end Printing

/-! ### The functions of the source -/

theorem prints_metaHashKey : Prints createIndexMetaHashKey StoreKey.info plainNames := by
  intro i hi
  refine ⟨PlainName.notMem hi, ?_⟩
  rw [createIndexMetaHashKey_eq, PlainName.cString_eq hi]

theorem prints_polygonsHashKey :
    Prints createIndexPolygonsHashKey StoreKey.polygons plainNames := by
  intro i hi
  refine ⟨PlainName.notMem hi, ?_⟩
  rw [createIndexPolygonsHashKey_eq, PlainName.cString_eq hi]

theorem prints_cellsSetKey (env : Environment) :
    Prints (Function.uncurry createIndexCellsSetKey) (Function.uncurry StoreKey.cells)
      (plainNames ×ˢ cellTerms env) := by
  rintro ⟨i, t⟩ ⟨hi, ht⟩
  refine ⟨PlainName.notMem hi, ?_⟩
  rw [Function.uncurry_apply_pair, createIndexCellsSetKey_eq, PlainName.cString_eq hi,
    cString_eq_self (nulFree_of_mem_cellTerms ht), Function.uncurry_apply_pair]

theorem prints_cellsSetKeyCStr (env : Environment) :
    Prints (Function.uncurry createIndexCellsSetKeyCStr) (Function.uncurry StoreKey.cells)
      (plainNames ×ˢ cellTerms env) := by
  rintro ⟨i, t⟩ ⟨hi, ht⟩
  refine ⟨PlainName.notMem hi, ?_⟩
  rw [Function.uncurry_apply_pair, createIndexCellsSetKeyCStr_eq, PlainName.cString_eq hi,
    cString_eq_self (nulFree_of_mem_cellTerms ht), Function.uncurry_apply_pair]

theorem prints_cellInfoSetKey :
    Prints (Function.uncurry createPolygonCellInfoSetKey) (Function.uncurry StoreKey.cellinfo)
      (plainNames ×ˢ plainNames) := by
  rintro ⟨i, p⟩ ⟨hi, hp⟩
  refine ⟨PlainName.notMem hi, ?_⟩
  rw [Function.uncurry_apply_pair, createPolygonCellInfoSetKey_eq, PlainName.cString_eq hi,
    PlainName.cString_eq hp, Function.uncurry_apply_pair]

/-- The keys of a kind, over all names and terms; a cells key is printed by the writer
or by the reader. -/
def keysOf (env : Environment) : KeyKind → Set Bytes
  | .info => createIndexMetaHashKey '' plainNames
  | .polygons => createIndexPolygonsHashKey '' plainNames
  | .cells =>
      Function.uncurry createIndexCellsSetKey '' plainNames ×ˢ cellTerms env ∪
        Function.uncurry createIndexCellsSetKeyCStr '' plainNames ×ˢ cellTerms env
  | .cellinfo => Function.uncurry createPolygonCellInfoSetKey '' plainNames ×ˢ plainNames

theorem keysOf_subset (env : Environment) (kind : KeyKind) :
    keysOf env kind ⊆ bytesOfKind kind := by
  cases kind with
  | info => exact prints_metaHashKey.image_subset fun _ => rfl
  | polygons => exact prints_polygonsHashKey.image_subset fun _ => rfl
  | cells =>
      exact Set.union_subset ((prints_cellsSetKey env).image_subset fun _ => rfl)
        ((prints_cellsSetKeyCStr env).image_subset fun _ => rfl)
  | cellinfo => exact prints_cellInfoSetKey.image_subset fun _ => rfl

/-! ### Keys tell their arguments -/

theorem uncurry_cells_injective : Function.Injective (Function.uncurry StoreKey.cells) := by
  rintro ⟨i, t⟩ ⟨j, u⟩ h
  obtain ⟨hi, ht⟩ := StoreKey.cells.inj h
  exact Prod.ext hi ht

theorem uncurry_cellinfo_injective :
    Function.Injective (Function.uncurry StoreKey.cellinfo) := by
  rintro ⟨i, p⟩ ⟨j, q⟩ h
  obtain ⟨hi, hp⟩ := StoreKey.cellinfo.inj h
  exact Prod.ext hi hp

/-- Each key determines what it was printed from, keys of different kinds differ, and the
writer and the reader of a term agree on its key. -/
theorem keys_unambiguous (env : Environment) :
    Set.InjOn createIndexMetaHashKey plainNames ∧
    Set.InjOn createIndexPolygonsHashKey plainNames ∧
    Set.InjOn (Function.uncurry createIndexCellsSetKey) (plainNames ×ˢ cellTerms env) ∧
    Set.InjOn (Function.uncurry createIndexCellsSetKeyCStr) (plainNames ×ˢ cellTerms env) ∧
    Set.InjOn (Function.uncurry createPolygonCellInfoSetKey) (plainNames ×ˢ plainNames) ∧
    (∀ kind kind', kind ≠ kind' → Disjoint (keysOf env kind) (keysOf env kind')) ∧
    ∀ i ∈ plainNames, ∀ j ∈ plainNames, ∀ t ∈ cellTerms env, ∀ u ∈ cellTerms env,
      createIndexCellsSetKey i t = createIndexCellsSetKeyCStr j u ↔ i = j ∧ t = u := by
  refine ⟨?_, ?_, ?_, ?_, ?_, ?_, ?_⟩
  · exact prints_metaHashKey.injOn fun _ _ => StoreKey.info.inj
  · exact prints_polygonsHashKey.injOn fun _ _ => StoreKey.polygons.inj
  · exact (prints_cellsSetKey env).injOn uncurry_cells_injective
  · exact (prints_cellsSetKeyCStr env).injOn uncurry_cells_injective
  · exact prints_cellInfoSetKey.injOn uncurry_cellinfo_injective
  · intro kind kind' hne
    exact (bytesOfKind_disjoint hne).mono (keysOf_subset env kind) (keysOf_subset env kind')
  · intro i hi j hj t ht u hu
    calc createIndexCellsSetKey i t = createIndexCellsSetKeyCStr j u
      _ ↔ StoreKey.cells i t = StoreKey.cells j u :=
          (prints_cellsSetKey env).eq_iff (prints_cellsSetKeyCStr env)
            (Set.mk_mem_prod hi ht) (Set.mk_mem_prod hj hu)
      _ ↔ i = j ∧ t = u := by rw [StoreKey.cells.injEq]

/-- The name of the leaf at the origin is stored in the index `i` under the key it is
looked up with there, and a search in another index looks up another key. -/
theorem keys_unambiguous_leaf :
    createIndexCellsSetKey (ascii "i") (cellIdToString leafOfOrigin.1) =
      createIndexCellsSetKeyCStr (ascii "i") (cellIdToString leafOfOrigin.1) ∧
    createIndexCellsSetKey (ascii "i") (cellIdToString leafOfOrigin.1) ≠
      createIndexCellsSetKeyCStr (ascii "p") (cellIdToString leafOfOrigin.1) := by
  have hleaf : cellIdToString leafOfOrigin.1 ∈ cellTerms sampleEnvironment :=
    Or.inr (Or.inr ⟨some (ascii "0", ascii "0"), (mem_indexLeaf _ _).mpr (Or.inr (Or.inr rfl))⟩)
  obtain ⟨-, -, -, -, -, -, hagree⟩ := keys_unambiguous sampleEnvironment
  constructor
  · exact (hagree _ plainName_i _ plainName_i _ hleaf _ hleaf).mpr ⟨rfl, rfl⟩
  · intro h
    have hindex := ((hagree _ plainName_i _ plainName_p _ hleaf _ hleaf).mp h).1
    exact absurd hindex (by decide)

end RedisS2Geo.Guarantees
