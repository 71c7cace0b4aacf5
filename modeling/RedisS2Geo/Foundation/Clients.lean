import RedisS2Geo.Foundation.Footprint
import RedisS2Geo.Foundation.Histories
import RedisS2Geo.Foundation.Interleaving

/-!
# Interleavings of any number of clients

Each label carries the client that sent it. When labels of different clients commute,
all interleavings of the same client programs are equivalent: they end in the same state,
and every client gets the same replies.
-/

namespace RedisS2Geo.Foundation

variable {ι S L O : Type*} [DecidableEq ι]

/-- The labels of one client, or the replies it gets. -/
def part (k : ι) (zs : List (ι × L)) : List L :=
  zs.filterMap fun z => if z.1 = k then some z.2 else none

omit [DecidableEq ι] in
/-- The machine with its clients: a reply goes to the client that sent the label. -/
def tagged (step : Step S L O) : Step S (ι × L) (ι × O) :=
  fun z s => (step z.2 s).map fun r => ((z.1, r.1), r.2)

@[simp] theorem part_nil (k : ι) : part k ([] : List (ι × L)) = [] := rfl

theorem part_append (k : ι) (xs ys : List (ι × L)) :
    part k (xs ++ ys) = part k xs ++ part k ys := List.filterMap_append

theorem part_cons_self (k : ι) (a : L) (zs : List (ι × L)) :
    part k ((k, a) :: zs) = a :: part k zs := by simp [part]

theorem part_cons_of_ne {k : ι} {z : ι × L} (h : z.1 ≠ k) (zs : List (ι × L)) :
    part k (z :: zs) = part k zs := by simp [part, h]

theorem part_eq_nil {k : ι} {zs : List (ι × L)} (h : ∀ z ∈ zs, z.1 ≠ k) : part k zs = [] := by
  induction zs with
  | nil => rfl
  | cons z zs ih =>
      rw [part_cons_of_ne (h z (by simp))]
      exact ih fun w hw => h w (by simp [hw])

theorem mem_part {k : ι} {a : L} {zs : List (ι × L)} : a ∈ part k zs ↔ (k, a) ∈ zs := by
  simp [part]

/-- The first label of a client stands behind labels of the other ones. -/
theorem exists_first {k : ι} {a : L} {as : List L} {zs : List (ι × L)}
    (h : part k zs = a :: as) :
    ∃ xs ys, zs = xs ++ (k, a) :: ys ∧ (∀ z ∈ xs, z.1 ≠ k) ∧ part k ys = as := by
  induction zs with
  | nil => cases h
  | cons z zs ih =>
      by_cases hz : z.1 = k
      · obtain ⟨k', b⟩ := z
        obtain rfl : k' = k := hz
        rw [part_cons_self] at h
        obtain ⟨rfl, has⟩ := List.cons.inj h
        exact ⟨[], zs, rfl, by simp, has⟩
      · rw [part_cons_of_ne hz] at h
        obtain ⟨xs, ys, rfl, hxs, hys⟩ := ih h
        exact ⟨z :: xs, ys, rfl, by simpa [hz] using hxs, hys⟩

variable {step : Step S L O}

omit [DecidableEq ι] in
theorem tagged_eq_some {z : ι × L} {r : ι × O} {s t : S} :
    tagged step z s = some (r, t) ↔ ∃ o, step z.2 s = some (o, t) ∧ r = (z.1, o) := by
  simp only [tagged, Option.map_eq_some_iff, Prod.mk.injEq, Prod.exists]
  constructor
  · rintro ⟨o, u, hs, rfl, rfl⟩
    exact ⟨o, hs, rfl⟩
  · rintro ⟨o, hs, rfl⟩
    exact ⟨o, t, hs, rfl, rfl⟩

omit [DecidableEq ι] in
/-- The replies of a run go to the clients that sent the labels, in this order. -/
theorem tags_of_run {zs : List (ι × L)} {s t : S} {os : List (ι × O)}
    (h : run (tagged step) zs s = some (os, t)) : os.map Prod.fst = zs.map Prod.fst := by
  induction zs generalizing s os with
  | nil =>
      obtain ⟨rfl, -⟩ : [] = os ∧ s = t := by simpa using h
      rfl
  | cons z zs ih =>
      obtain ⟨r, s', os', hs, hr, rfl⟩ := run_cons_eq_some.mp h
      obtain ⟨o, -, rfl⟩ := tagged_eq_some.mp hs
      rw [List.map_cons, List.map_cons, ih hr]

/-- Labels of the other clients give this client no reply. -/
theorem part_replies_eq_nil {k : ι} {zs : List (ι × L)} {s t : S} {os : List (ι × O)}
    (h : run (tagged step) zs s = some (os, t)) (hk : ∀ z ∈ zs, z.1 ≠ k) : part k os = [] := by
  apply part_eq_nil
  intro r hr
  have hmem : r.1 ∈ zs.map Prod.fst := tags_of_run h ▸ List.mem_map_of_mem hr
  obtain ⟨z, hz, he⟩ := List.mem_map.mp hmem
  exact he ▸ hk z hz

/-! ### Commuting labels -/

omit [DecidableEq ι] in
theorem CommuteAt.symm {a b : L} {s : S} (h : CommuteAt step a b s) : CommuteAt step b a s := by
  obtain ⟨oa, ob, s₁, s₂, t, h₁, h₂, h₃, h₄⟩ := h
  exact ⟨ob, oa, s₂, s₁, t, h₃, h₄, h₁, h₂⟩

omit [DecidableEq ι] in
/-- A label commutes with one that only observes, when it does not change what is observed. -/
theorem CommuteAt.of_observed {a b : L} {oa ob : O} {s s' : S} (ha : step a s = some (oa, s'))
    (hb : step b s = some (ob, s)) (hb' : step b s' = some (ob, s')) : CommuteAt step a b s :=
  ⟨oa, ob, s', s, s', ha, hb', hb, ha⟩

omit [DecidableEq ι] in
/-- Tags do not matter for commuting. -/
theorem CommuteAt.tagged {z w : ι × L} {s : S} (h : CommuteAt step z.2 w.2 s) :
    CommuteAt (tagged step) z w s := by
  obtain ⟨oa, ob, s₁, s₂, t, h₁, h₂, h₃, h₄⟩ := h
  exact ⟨(z.1, oa), (w.1, ob), s₁, s₂, t, tagged_eq_some.mpr ⟨oa, h₁, rfl⟩,
    tagged_eq_some.mpr ⟨ob, h₂, rfl⟩, tagged_eq_some.mpr ⟨ob, h₃, rfl⟩,
    tagged_eq_some.mpr ⟨oa, h₄, rfl⟩⟩

/-- Computations that are local to disjoint regions commute. -/
theorem commuteAt_of_local {κ ν L O : Type} {step : Step (κ → ν) L O} {a b : L} {R R' : Set κ}
    (ha : Local R (step a : StateT (κ → ν) Option O))
    (hb : Local R' (step b : StateT (κ → ν) Option O)) (hd : Disjoint R R')
    {oa ob : O} {K K₁ K₂ : κ → ν} (hea : step a K = some (oa, K₁))
    (heb : step b K = some (ob, K₂)) : CommuteAt step a b K := by
  have haway : Set.EqOn K K₁ R' := fun k hk =>
    (ha.frame hea (Set.disjoint_right.mp hd hk)).symm
  have hbway : Set.EqOn K K₂ R := fun k hk =>
    (hb.frame heb (Set.disjoint_left.mp hd hk)).symm
  obtain ⟨K₃, heb', hR'⟩ := hb.depends haway heb
  obtain ⟨K₄, hea', hR⟩ := ha.depends hbway hea
  -- both orders leave the values that each computation alone leaves in its region
  have hsame : K₃ = K₄ := by
    funext k
    by_cases hk : k ∈ R
    · rw [hb.frame heb' (Set.disjoint_left.mp hd hk), hR hk]
    · by_cases hk' : k ∈ R'
      · rw [← hR' hk', ha.frame hea' hk]
      · rw [hb.frame heb' hk', ha.frame hea hk, ha.frame hea' hk, hb.frame heb hk']
  subst hsame
  exact ⟨oa, ob, K₁, K₂, K₃, hea, heb', heb, hea'⟩

/-! ### The equivalence of interleavings -/

/-- Any two interleavings of the same programs, whose labels commute between different
clients, end in the same state and give every client the same replies. -/
theorem run_interleavings {Inv : S → Prop} {zs zs' : List (ι × L)} {s : S}
    (hstep : ∀ z ∈ zs, ∀ s, Inv s → ∃ o t, step z.2 s = some (o, t) ∧ Inv t)
    (hcomm : ∀ z ∈ zs, ∀ w ∈ zs, z.1 ≠ w.1 → ∀ s, Inv s → CommuteAt step z.2 w.2 s)
    (hparts : ∀ k, part k zs = part k zs') (hs : Inv s) :
    ∃ os os' t, run (tagged step) zs s = some (os, t) ∧
      run (tagged step) zs' s = some (os', t) ∧ ∀ k, part k os = part k os' := by
  induction zs generalizing zs' s with
  | nil =>
      have hnil : zs' = [] := by
        rcases zs' with _ | ⟨⟨k, a⟩, zs'⟩
        · rfl
        · have h := hparts k
          rw [part_cons_self] at h
          cases h
      subst hnil
      exact ⟨[], [], s, rfl, rfl, fun _ => rfl⟩
  | cons z zs ih =>
      obtain ⟨k, a⟩ := z
      obtain ⟨o, s', ha, hs'⟩ := hstep (k, a) (by simp) s hs
      -- the other interleaving runs this label later, behind labels of other clients
      have hk := hparts k
      rw [part_cons_self] at hk
      obtain ⟨xs, ys, rfl, hxs, hys⟩ := exists_first hk.symm
      have hrest : ∀ j, part j zs = part j (xs ++ ys) := by
        intro j
        have hj := hparts j
        by_cases hjk : k = j
        · subst hjk
          rw [part_append, part_eq_nil hxs, hys, List.nil_append]
        · rw [part_cons_of_ne hjk, part_append, part_cons_of_ne hjk] at hj
          rw [hj, part_append]
      obtain ⟨os, os', t, hrun, hrun', hos⟩ := ih (fun w hw => hstep w (by simp [hw]))
        (fun w hw v hv => hcomm w (by simp [hw]) v (by simp [hv])) hrest hs'
      obtain ⟨osx, u, osy, hx, hy, rfl⟩ := run_append_eq_some.mp hrun'
      have hmem : ∀ w ∈ xs, w ∈ zs := by
        intro w hw
        have hp : w.2 ∈ part w.1 (xs ++ ys) := mem_part.mpr (by simp [hw])
        rw [← hrest] at hp
        exact mem_part.mp hp
      have hb : tagged step (k, a) s = some ((k, o), s') := tagged_eq_some.mpr ⟨o, ha, rfl⟩
      have hlive : ∀ w ∈ xs, ∀ s, Inv s → ∃ r t, tagged step w s = some (r, t) ∧ Inv t := by
        intro w hw s hs
        obtain ⟨r, v, hr, hv⟩ := hstep w (by simp [hmem w hw]) s hs
        exact ⟨(w.1, r), v, tagged_eq_some.mpr ⟨r, hr, rfl⟩, hv⟩
      have hpass : ∀ w ∈ xs, ∀ s, Inv s → CommuteAt (tagged step) w (k, a) s := by
        intro w hw s hs
        exact (hcomm w (by simp [hmem w hw]) (k, a) (by simp) (hxs w hw) s hs).tagged
      obtain ⟨osx', s₁, u', hx', hlate, hx''⟩ := run_commute hlive hpass hb hs
      obtain ⟨rfl, rfl⟩ : osx' = osx ∧ u' = u := by simpa [hx] using hx''.symm
      have hlast : run (tagged step) ((k, a) :: ys) s₁ = some ((k, o) :: osy, t) :=
        run_cons_eq_some.mpr ⟨_, u', osy, hlate, hy, rfl⟩
      refine ⟨(k, o) :: os, osx' ++ (k, o) :: osy, t,
        run_cons_eq_some.mpr ⟨_, s', os, hb, hrun, rfl⟩,
        run_append_eq_some.mpr ⟨osx', s₁, _, hx', hlast, rfl⟩, fun j => ?_⟩
      have hj := hos j
      by_cases hjk : k = j
      · subst hjk
        rw [part_append, part_replies_eq_nil hx' hxs, List.nil_append] at hj ⊢
        rw [part_cons_self, part_cons_self, hj]
      · rw [part_append] at hj ⊢
        rw [part_cons_of_ne hjk, part_cons_of_ne hjk, hj]

end RedisS2Geo.Foundation
