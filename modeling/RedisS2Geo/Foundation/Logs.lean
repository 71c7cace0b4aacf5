import RedisS2Geo.Foundation.Histories
import Mathlib.Data.Finmap
import Mathlib.Data.List.Basic

/-!
# Logs of commands

What may happen to a log without a change of the state it leads to: commands are
delivered more than once, commands that later ones overwrite are dropped, and commands
are taken back in the reverse order. A map is the log of its entries.
-/

namespace RedisS2Geo.Foundation

section Replay
variable {S C : Type*}

/-- The state that a log leads to. -/
def replay (next : C → S → S) (log : List C) (s : S) : S := log.foldl (fun s c => next c s) s

variable {next : C → S → S} {log log' : List C} {c d : C} {s t : S}

@[simp] theorem replay_nil : replay next [] s = s := rfl

@[simp] theorem replay_cons : replay next (c :: log) s = replay next log (next c s) := rfl

theorem replay_append : replay next (log ++ log') s = replay next log' (replay next log s) :=
  List.foldl_append

/-! ### Repeated delivery -/

/-- The second log delivers every command of the first one once or several times in a row. -/
inductive Redelivers : List C → List C → Prop
  | nil : Redelivers [] []
  | once {c : C} {log log' : List C} (h : Redelivers log log') : Redelivers (c :: log) (c :: log')
  | again {c : C} {log log' : List C} (h : Redelivers (c :: log) log') :
      Redelivers (c :: log) (c :: log')

/-- Nothing else is delivered. -/
theorem Redelivers.subset (h : Redelivers log log') : log' ⊆ log := by
  induction h with
  | nil => exact List.Subset.refl _
  | once _ ih => exact List.cons_subset_cons _ ih
  | again _ ih => exact List.cons_subset.mpr ⟨List.mem_cons_self, ih⟩

/-- Commands that may be repeated may be delivered any number of times. -/
theorem Redelivers.replay_eq (h : Redelivers log log')
    (hidem : ∀ c s, next c (next c s) = next c s) (s : S) :
    replay next log' s = replay next log s := by
  induction h generalizing s with
  | nil => rfl
  | once _ ih => rw [replay_cons, replay_cons, ih]
  | @again c log log' _ ih =>
      calc replay next (c :: log') s = replay next (c :: log) (next c s) := ih (next c s)
        _ = replay next log (next c (next c s)) := rfl
        _ = replay next (c :: log) s := by rw [hidem, replay_cons]

/-! ### Compaction -/

/-- A relation that every command keeps is kept by a log. -/
theorem replay_related {R : S → S → Prop} (hkeep : ∀ c s t, R s t → R (next c s) (next c t))
    (log : List C) (h : R s t) : R (replay next log s) (replay next log t) := by
  induction log generalizing s t with
  | nil => exact h
  | cons c log ih => exact ih (hkeep c s t h)

/-- A difference that every command keeps and that one command of the log removes is not
seen behind the log. -/
theorem replay_merged {R : S → S → Prop} (hkeep : ∀ c s t, R s t → R (next c s) (next c t))
    (hmerge : ∀ s t, R s t → next d s = next d t) (hd : d ∈ log) (h : R s t) :
    replay next log s = replay next log t := by
  obtain ⟨before, behind, rfl⟩ := List.append_of_mem hd
  have hbefore : R (replay next before s) (replay next before t) :=
    replay_related hkeep before h
  rw [replay_append, replay_append, replay_cons, replay_cons, hmerge _ _ hbefore]

/-- Drop the commands that can be spared, given the log behind them. -/
def compact (spared : C → List C → Bool) : List C → List C
  | [] => []
  | c :: log => if spared c log then compact spared log else c :: compact spared log

theorem compact_sublist (spared : C → List C → Bool) (log : List C) :
    (compact spared log).Sublist log := by
  induction log with
  | nil => exact .slnil
  | cons c log ih =>
      rw [compact]
      split
      · exact ih.cons c
      · exact ih.cons_cons c

/-- A kept command was not to be spared for any command kept behind it. -/
theorem compact_pairwise {spared : C → List C → Bool} {overwrites : C → C → Prop}
    (h : ∀ c d log, d ∈ log → overwrites d c → spared c log = true) (log : List C) :
    (compact spared log).Pairwise fun c d => ¬ overwrites d c := by
  induction log with
  | nil => exact .nil
  | cons c log ih =>
      rw [compact]
      split
      · exact ih
      · refine List.pairwise_cons.mpr ⟨fun d hd ho => ?_, ih⟩
        have hkept : d ∈ log := (compact_sublist spared log).subset hd
        exact absurd (h c d log hkept ho) ‹_›

theorem map_compact {D : Type*} (f : D → C) (spared : C → List C → Bool) (log : List D) :
    (compact (fun c log => spared (f c) (log.map f)) log).map f = compact spared (log.map f) := by
  induction log with
  | nil => rfl
  | cons c log ih =>
      rw [compact, List.map_cons, compact]
      split
      · exact ih
      · rw [List.map_cons, ih]

/-- A log leads to the same state without the commands that can be spared. -/
theorem replay_compact {spared : C → List C → Bool}
    (h : ∀ c log s, spared c log = true → replay next log (next c s) = replay next log s)
    (log : List C) (s : S) : replay next (compact spared log) s = replay next log s := by
  induction log generalizing s with
  | nil => rfl
  | cons c log ih =>
      rw [compact, replay_cons]
      split
      · rw [ih, h c log s ‹_›]
      · rw [replay_cons, ih]

end Replay

/-! ### A map from its entries -/

section Entries
variable {α β : Type*} [DecidableEq α] {m m' : Finmap fun _ : α => β} {entries : List (α × β)}

/-- Writing entries of a map gives its values at their names, in any order and with repeats. -/
theorem lookup_foldl_insert (h : ∀ e ∈ entries, m.lookup e.1 = some e.2) (a : α) :
    (entries.foldl (fun m e => m.insert e.1 e.2) m').lookup a =
      if a ∈ entries.map Prod.fst then m.lookup a else m'.lookup a := by
  induction entries generalizing m' with
  | nil => rfl
  | cons e entries ih =>
      rw [List.foldl_cons, ih fun f hf => h f (List.mem_cons_of_mem e hf), List.map_cons]
      by_cases ha : a ∈ entries.map Prod.fst
      · rw [if_pos ha, if_pos (List.mem_cons_of_mem e.1 ha)]
      · rw [if_neg ha]
        by_cases he : a = e.1
        · subst he
          rw [Finmap.lookup_insert, if_pos List.mem_cons_self, h e List.mem_cons_self]
        · have hout : a ∉ e.1 :: entries.map Prod.fst := by simp [he, ha]
          rw [Finmap.lookup_insert_of_ne m' he, if_neg hout]

/-- All entries of a map give the map. -/
theorem foldl_insert_eq (h : ∀ a b, (a, b) ∈ entries ↔ m.lookup a = some b) :
    entries.foldl (fun m e => m.insert e.1 e.2) ∅ = m := by
  apply Finmap.ext_lookup
  intro a
  rw [lookup_foldl_insert (fun e he => (h e.1 e.2).mp he) a]
  split
  · rfl
  · rw [Finmap.lookup_empty]
    symm
    rw [Option.eq_none_iff_forall_ne_some]
    intro b hb
    exact absurd (List.mem_map.mpr ⟨(a, b), (h a b).mpr hb, rfl⟩) ‹_›

end Entries

/-! ### Taking commands back -/

section Rollback
variable {S L O : Type*}

/-- The labels that take a run back, the last one first. -/
def rollback (step : Step S L O) (undo : L → S → List L) : List L → S → List L
  | [], _ => []
  | l :: ls, s => (step l s).elim [] (fun r => rollback step undo ls r.2) ++ undo l s

/-- When every step can be taken back, so can every run. -/
theorem run_rollback {step : Step S L O} {undo : L → S → List L} {Inv : S → Prop}
    {Allowed : L → Prop}
    (h : ∀ l s, Allowed l → Inv s → ∃ o s', step l s = some (o, s') ∧ Inv s' ∧
      ∃ os, run step (undo l s) s' = some (os, s))
    {ls : List L} (hls : ∀ l ∈ ls, Allowed l) {s : S} (hs : Inv s) :
    ∃ os t, run step ls s = some (os, t) ∧
      ∃ os', run step (rollback step undo ls s) t = some (os', s) := by
  induction ls generalizing s with
  | nil => exact ⟨[], s, rfl, [], rfl⟩
  | cons l ls ih =>
      obtain ⟨o, s', hl, hs', os₁, hundo⟩ := h l s (hls l (by simp)) hs
      obtain ⟨os, t, hrun, os', hback⟩ := ih (fun k hk => hls k (by simp [hk])) hs'
      refine ⟨o :: os, t, run_cons_eq_some.mpr ⟨o, s', os, hl, hrun, rfl⟩, os' ++ os₁, ?_⟩
      rw [rollback, hl]
      exact run_append_eq_some.mpr ⟨os', s', os₁, hback, hundo, rfl⟩

end Rollback

end RedisS2Geo.Foundation
