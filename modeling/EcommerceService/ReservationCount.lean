import Mathlib.Algebra.BigOperators.Group.List.Basic
import EcommerceService.Reservations

namespace EcommerceService.ReservationCount

open EcommerceService.Effects EcommerceService.Errors EcommerceService.Models
open EcommerceService.SortedSets EcommerceService.Cache EcommerceService.Storefront
open EcommerceService.Storefront.ProductStockCacheStore EcommerceService.Shop
open EcommerceService.Reservations

/-- A completed reservation, and the second at which it was started. -/
structure Reservation where
  productId : ℕ
  userId : ℕ
  quantity : ℤ
  second : ℕ
deriving DecidableEq, Repr

/-- Completed calls one after the other, time passing in them and between them, with the
reservations among them. -/
inductive History (s : State) : List Reservation → State → Prop
  | start : History s [] s
  | reserve {rs : List Reservation} {t u : State} {p userId : ℕ} {quantity : ℤ} {as : List ℕ} :
      History s rs t → Effect.Runs State.exec (reserveStock p userId quantity) t (.success as) u →
      History s (rs ++ [⟨p, userId, quantity, t.second⟩]) u
  | count {rs : List Reservation} {t u : State} {p n : ℕ} : History s rs t →
      Effect.Runs State.exec (countReservedStock p) t (.success n) u → History s rs u
  | wait {rs : List Reservation} {t : State} (ms : ℕ) : History s rs t → History s rs (t.wait ms)

def Reservation.counts (p now : ℕ) (r : Reservation) : Bool :=
  r.productId = p && now < r.second + 300

def reservedAt (p now : ℕ) (rs : List Reservation) : ℤ :=
  ((rs.filter (Reservation.counts p now)).map (·.quantity)).sum

theorem countP_unitsOf {p p' userId now score : ℕ} {id : Uuid} {seqs : List ℕ} :
    (unitsOf p userId score id seqs).countP (fun unit => unit.productId = p' && live now unit.score) =
      if p = p' ∧ live now score = true then seqs.length else 0 := by
  rw [unitsOf, List.countP_map]
  split
  · rename_i h
    exact List.countP_eq_length.mpr (fun seq _ => by simpa using h)
  · rename_i h
    exact List.countP_eq_zero.mpr (fun seq _ => by simpa using h)

theorem countReservedStock_adds {s t : State} {p : ℕ} {x : Exit Error ℕ}
    (h : Effect.Runs State.exec (countReservedStock p) s x t) (hs : Known s) :
    Adds [] s t ∧ ∀ n, x = .success n → n = (s.reservations p).count (live s.second) := by
  obtain ⟨now, u, hnow, hcount⟩ := Effect.runs_perform.mp h
  obtain ⟨rfl, ms, rfl⟩ := exec_dateNow hnow
  have hwait : Adds [] s (s.wait ms) := .of_same hs rfl (List.Subset.refl _) (Nat.le_add_right _ _)
  obtain ⟨hadds, _, hn⟩ := runs_countReservedStockAt hcount hwait.known (second_mono hwait.clock)
  exact ⟨hwait.trans hadds, hn⟩

/-- The units that are live after a history are those of its reservations. -/
theorem History.adds {s t : State} {rs : List Reservation} (h : History s rs t) (hs : Known s)
    (hq : ∀ r ∈ rs, 0 < r.quantity) : ∃ units, Adds units s t ∧ ∀ p now,
      (units.countP (fun unit => unit.productId = p && live now unit.score) : ℤ) =
        reservedAt p now rs := by
  induction h with
  | start => exact ⟨[], .refl hs, fun p now => rfl⟩
  | @reserve rs t u p userId quantity as _ hr ih =>
    obtain ⟨units, hadds, hunits⟩ := ih (fun r hr => hq r (List.mem_append_left _ hr))
    obtain ⟨id, done, _, _, hnew, hall⟩ := runs_reserveStock hr hadds.known
    obtain rfl := hall as rfl
    have hpos : 0 < quantity := hq _ (List.mem_append_right _ List.mem_cons_self)
    refine ⟨_, hadds.trans hnew, fun p' now => ?_⟩
    have hlast : reservedAt p' now [⟨p, userId, quantity, t.second⟩] =
        if p = p' ∧ now < t.second + 300 then quantity else 0 := by
      by_cases hc : p = p' ∧ now < t.second + 300 <;>
        simp [reservedAt, Reservation.counts, hc]
    have hsum : reservedAt p' now (rs ++ [⟨p, userId, quantity, t.second⟩]) = reservedAt p' now rs +
        reservedAt p' now [⟨p, userId, quantity, t.second⟩] := by
      simp only [reservedAt, List.filter_append, List.map_append, List.sum_append]
    rw [List.countP_append, Nat.cast_add, hunits, hsum, hlast, countP_unitsOf, List.length_range']
    by_cases hc : p = p' ∧ now < t.second + 300
    · rw [if_pos hc, if_pos ⟨hc.1, decide_eq_true hc.2⟩, Int.toNat_of_nonneg hpos.le]
    · rw [if_neg hc, if_neg (fun hl => hc ⟨hl.1, of_decide_eq_true hl.2⟩), Nat.cast_zero]
  | count _ hr ih =>
    obtain ⟨units, hadds, hunits⟩ := ih hq
    obtain ⟨hcount, _⟩ := countReservedStock_adds hr hadds.known
    exact ⟨_, hadds.trans hcount, by simpa using hunits⟩
  | wait ms _ ih =>
    obtain ⟨units, hadds, hunits⟩ := ih hq
    have hwait : Adds [] _ (State.wait _ ms) :=
      .of_same hadds.known rfl (List.Subset.refl _) (Nat.le_add_right _ _)
    exact ⟨_, hadds.trans hwait, by simpa using hunits⟩

/-- A count finds the reserved quantities that have not expired, whatever was reserved, counted
and purged before. -/
theorem reservation_count_exact {s t u : State} {rs : List Reservation} {p n : ℕ}
    (hs : ∀ p, s.reservations p = .empty) (h : History s rs t) (hq : ∀ r ∈ rs, 0 < r.quantity)
    (hr : Effect.Runs State.exec (countReservedStock p) t (.success n) u) :
    (n : ℤ) = ((rs.filter (fun r => r.productId = p && t.second < r.second + 300)).map
      (·.quantity)).sum := by
  have hknown : Known s := by
    intro p m k hm
    rw [hs p] at hm
    exact absurd hm SortedSet.not_has_empty
  obtain ⟨units, hadds, hunits⟩ := h.adds hknown hq
  obtain ⟨_, hn⟩ := countReservedStock_adds hr hadds.known
  have hcount := hadds.count p t.second le_rfl
  rw [hs p, SortedSet.count_empty, Nat.zero_add] at hcount
  rw [hn n rfl, hcount]
  exact hunits p t.second

section Example

theorem countReservedStock_run (s : State) (p : ℕ) :
    ∃ n t, Effect.Runs State.exec (countReservedStock p) s (.success n) t := by
  obtain ⟨n, redis, hrun⟩ := countReservedStockAt_run s p s.second
  exact ⟨n, _, .perform ⟨s, 0, ⟨rfl, rfl⟩, rfl⟩ hrun⟩

/-- Two units that were reserved at the second 0 count at the second 299, and not at the
second 300. -/
theorem reservation_count_exact_expiry : ∃ t u v n m,
    History opened [⟨1, 7, 2, 0⟩] t ∧ t.second = 299 ∧
    Effect.Runs State.exec (countReservedStock 1) t (.success n) u ∧ (n : ℤ) = 2 ∧
    Effect.Runs State.exec (countReservedStock 1) (t.wait 1000) (.success m) v ∧ (m : ℤ) = 0 := by
  have hfresh : firstId ∉ opened.issued := List.not_mem_nil
  obtain ⟨as, redis, hreserve⟩ := reserveStock_run opened 1 7 2 hfresh
  generalize hw : ({ opened with redis := redis, issued := firstId :: opened.issued } : State) = w
    at hreserve
  have hfirst : History opened [⟨1, 7, 2, 0⟩] w := History.start.reserve hreserve
  have ht : (w.wait 299000).second = 299 := by simp [State.second, State.wait, ← hw, opened]
  have ht' : ((w.wait 299000).wait 1000).second = 300 := by
    simp [State.second, State.wait, ← hw, opened]
  obtain ⟨n, u, hn⟩ := countReservedStock_run (w.wait 299000) 1
  obtain ⟨m, v, hm⟩ := countReservedStock_run ((w.wait 299000).wait 1000) 1
  have hexact := reservation_count_exact (fun _ => rfl) (hfirst.wait 299000) (by simp) hn
  have hexact' := reservation_count_exact (fun _ => rfl) ((hfirst.wait 299000).wait 1000) (by simp) hm
  rw [ht] at hexact
  rw [ht'] at hexact'
  exact ⟨_, u, v, n, m, hfirst.wait 299000, ht, hn, hexact, hm, hexact'⟩

end Example

end EcommerceService.ReservationCount
