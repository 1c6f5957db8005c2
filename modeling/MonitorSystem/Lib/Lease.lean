import MonitorSystem.Lib.Transition
import Mathlib.Data.List.Nodup

/-! # Resources behind locks that outlive the call that took them

A manager locks a resource inside a call, lends it to the caller when the call
returns, and unlocks it in a later call. A call works on one resource at a time.
-/

namespace Lib.Lease

variable {T K : Type*}

structure Leases (T K : Type*) where
  locked : K → Bool
  held : T → Option K
  owned : List (T × K)

def Leases.lent (s : Leases T K) : List K := s.owned.map Prod.snd

/-- A resource has at most one user, and is locked while it has one. -/
structure Exclusive (s : Leases T K) : Prop where
  held_locked : ∀ t k, s.held t = some k → s.locked k = true
  lent_locked : ∀ k ∈ s.lent, s.locked k = true
  held_once : ∀ t u k, s.held t = some k → s.held u = some k → t = u
  lent_once : s.lent.Nodup
  apart : ∀ t k, s.held t = some k → k ∉ s.lent

theorem exclusive_start (locked : K → Bool) : Exclusive (⟨locked, fun _ => none, []⟩ : Leases T K) where
  held_locked t k h := by cases h
  lent_locked k h := by cases h
  held_once t u k h := by cases h
  lent_once := List.nodup_nil
  apart t k h := by cases h

theorem Exclusive.unlent {s : Leases T K} {k : K} (h : Exclusive s) (hFree : s.locked k = false) : k ∉ s.lent := by
  intro hLent
  rw [h.lent_locked k hLent] at hFree
  cases hFree

theorem Exclusive.unheld {s : Leases T K} {k : K} (h : Exclusive s) (hFree : s.locked k = false) (u : T) :
    s.held u ≠ some k := by
  intro hHeld
  rw [h.held_locked u k hHeld] at hFree
  cases hFree

variable [DecidableEq T]

/-- The call ends and forgets its resource, which stays locked. -/
def Leases.forget (s : Leases T K) (t : T) : Leases T K := { s with held := Function.update s.held t none }

def Leases.lend (s : Leases T K) (t : T) (k : K) : Leases T K :=
  { s with held := Function.update s.held t none, owned := (t, k) :: s.owned }

theorem Exclusive.forget {s : Leases T K} (h : Exclusive s) (t : T) : Exclusive (s.forget t) where
  held_locked := by
    intro u k hu
    obtain ⟨_, hEq⟩ | ⟨_, hHeld⟩ := Transition.update_cases hu
    · cases hEq
    · exact h.held_locked u k hHeld
  lent_locked := h.lent_locked
  held_once := by
    intro u v k hu hv
    obtain ⟨_, hEq⟩ | ⟨_, hHeldU⟩ := Transition.update_cases hu
    · cases hEq
    · obtain ⟨_, hEq⟩ | ⟨_, hHeldV⟩ := Transition.update_cases hv
      · cases hEq
      · exact h.held_once u v k hHeldU hHeldV
  lent_once := h.lent_once
  apart := by
    intro u k hu
    obtain ⟨_, hEq⟩ | ⟨_, hHeld⟩ := Transition.update_cases hu
    · cases hEq
    · exact h.apart u k hHeld

theorem Exclusive.lend {s : Leases T K} {t : T} {k : K} (h : Exclusive s) (hHeld : s.held t = some k) :
    Exclusive (s.lend t k) where
  held_locked := (h.forget t).held_locked
  lent_locked := by
    intro other hLent
    obtain hEq | hLent := List.mem_cons.mp hLent
    · rw [hEq]
      exact h.held_locked t k hHeld
    · exact h.lent_locked other hLent
  held_once := (h.forget t).held_once
  lent_once := List.nodup_cons.mpr ⟨h.apart t k hHeld, h.lent_once⟩
  apart := by
    intro u other hu hLent
    obtain ⟨_, hEq⟩ | ⟨hNe, hOther⟩ := Transition.update_cases hu
    · cases hEq
    · obtain hEq | hLent := List.mem_cons.mp hLent
      · rw [hEq] at hOther
        exact hNe (h.held_once u t k hOther hHeld)
      · exact h.apart u other hOther hLent

variable [DecidableEq K]

def Leases.lock (s : Leases T K) (t : T) (k : K) : Leases T K :=
  { s with locked := Function.update s.locked k true, held := Function.update s.held t (some k) }

def Leases.unlock (s : Leases T K) (t : T) (k : K) : Leases T K :=
  { s with locked := Function.update s.locked k false, held := Function.update s.held t none }

def Leases.takeBack (s : Leases T K) (t : T) (k : K) : Leases T K :=
  { s with held := Function.update s.held t (some k), owned := s.owned.erase (t, k) }

inductive Step (s : Leases T K) : Leases T K → Prop
  | stay : Step s s
  | lock {t : T} {k : K} (hFree : s.locked k = false) : Step s (s.lock t k)
  | unlock {t : T} {k : K} (hHeld : s.held t = some k) : Step s (s.unlock t k)
  | forget {t : T} : Step s (s.forget t)
  | lend {t : T} {k : K} (hHeld : s.held t = some k) : Step s (s.lend t k)
  | takeBack {t : T} {k : K} (hOwned : (t, k) ∈ s.owned) : Step s (s.takeBack t k)

namespace Exclusive

variable {s : Leases T K} {t : T} {k : K}

theorem lock (h : Exclusive s) (hFree : s.locked k = false) : Exclusive (s.lock t k) := by
  have hStill : ∀ other, s.locked other = true → (s.lock t k).locked other = true := by
    intro other hLocked
    obtain rfl | hDiff := eq_or_ne other k
    · exact Function.update_self ..
    · exact (Function.update_of_ne hDiff ..).trans hLocked
  constructor
  · intro u other hu
    obtain ⟨_, hEq⟩ | ⟨_, hHeld⟩ := Transition.update_cases hu
    · cases hEq
      exact Function.update_self ..
    · exact hStill other (h.held_locked u other hHeld)
  · intro other hLent
    exact hStill other (h.lent_locked other hLent)
  · intro u v other hu hv
    obtain ⟨hThread, hEq⟩ | ⟨_, hHeldU⟩ := Transition.update_cases hu
    · cases hEq
      obtain ⟨hSame, _⟩ | ⟨_, hHeldV⟩ := Transition.update_cases hv
      · rw [hThread, hSame]
      · exact absurd hHeldV (h.unheld hFree v)
    · obtain ⟨_, hEq⟩ | ⟨_, hHeldV⟩ := Transition.update_cases hv
      · cases hEq
        exact absurd hHeldU (h.unheld hFree u)
      · exact h.held_once u v other hHeldU hHeldV
  · exact h.lent_once
  · intro u other hu
    obtain ⟨_, hEq⟩ | ⟨_, hHeld⟩ := Transition.update_cases hu
    · cases hEq
      exact h.unlent hFree
    · exact h.apart u other hHeld

/-- Nobody is left with the resource that its only user unlocks. -/
theorem unlock (h : Exclusive s) (hHeld : s.held t = some k) : Exclusive (s.unlock t k) where
  held_locked := by
    intro u other hu
    obtain ⟨_, hEq⟩ | ⟨hNe, hOther⟩ := Transition.update_cases hu
    · cases hEq
    · have hDiff : other ≠ k := by
        rintro rfl
        exact hNe (h.held_once u t other hOther hHeld)
      exact (Function.update_of_ne hDiff ..).trans (h.held_locked u other hOther)
  lent_locked := by
    intro other hLent
    have hDiff : other ≠ k := by
      rintro rfl
      exact h.apart t other hHeld hLent
    exact (Function.update_of_ne hDiff ..).trans (h.lent_locked other hLent)
  held_once := (h.forget t).held_once
  lent_once := h.lent_once
  apart := (h.forget t).apart

theorem lent_perm (hOwned : (t, k) ∈ s.owned) : s.lent.Perm (k :: (s.takeBack t k).lent) :=
  (List.perm_cons_erase hOwned).map Prod.snd

theorem takeBack (h : Exclusive s) (hOwned : (t, k) ∈ s.owned) : Exclusive (s.takeBack t k) := by
  have hPerm := lent_perm hOwned
  obtain ⟨hGone, hRest⟩ := List.nodup_cons.mp (hPerm.nodup_iff.mp h.lent_once)
  have hLentBefore : k ∈ s.lent := hPerm.mem_iff.mpr List.mem_cons_self
  have hBefore : ∀ other ∈ (s.takeBack t k).lent, other ∈ s.lent := by
    intro other hLent
    exact hPerm.mem_iff.mpr (List.mem_cons_of_mem k hLent)
  constructor
  · intro u other hu
    obtain ⟨_, hEq⟩ | ⟨_, hHeld⟩ := Transition.update_cases hu
    · cases hEq
      exact h.lent_locked k hLentBefore
    · exact h.held_locked u other hHeld
  · intro other hLent
    exact h.lent_locked other (hBefore other hLent)
  · intro u v other hu hv
    obtain ⟨hThread, hEq⟩ | ⟨_, hHeldU⟩ := Transition.update_cases hu
    · cases hEq
      obtain ⟨hSame, _⟩ | ⟨_, hHeldV⟩ := Transition.update_cases hv
      · rw [hThread, hSame]
      · exact absurd hLentBefore (h.apart v k hHeldV)
    · obtain ⟨_, hEq⟩ | ⟨_, hHeldV⟩ := Transition.update_cases hv
      · cases hEq
        exact absurd hLentBefore (h.apart u k hHeldU)
      · exact h.held_once u v other hHeldU hHeldV
  · exact hRest
  · intro u other hu hLent
    obtain ⟨_, hEq⟩ | ⟨_, hHeld⟩ := Transition.update_cases hu
    · cases hEq
      exact hGone hLent
    · exact h.apart u other hHeld (hBefore other hLent)

theorem step {s' : Leases T K} (h : Exclusive s) (hStep : Step s s') : Exclusive s' := by
  cases hStep with
  | stay => exact h
  | lock hFree => exact h.lock hFree
  | unlock hHeld => exact h.unlock hHeld
  | forget => exact h.forget _
  | lend hHeld => exact h.lend hHeld
  | takeBack hOwned => exact h.takeBack hOwned

end Exclusive

end Lib.Lease
