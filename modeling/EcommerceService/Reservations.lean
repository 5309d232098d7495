import Mathlib.Data.List.Range
import EcommerceService.Shop

namespace EcommerceService.Reservations

open EcommerceService.Effects EcommerceService.Errors EcommerceService.Models
open EcommerceService.SortedSets EcommerceService.Cache EcommerceService.Storefront
open EcommerceService.Shop

/-- A reserved unit of a product: a member of its set, with the second at which it expires. -/
structure ReservedUnit where
  productId : ℕ
  member : String
  score : ℕ
deriving DecidableEq, Repr

/-- The members of the sets are units of reservations whose ids have been made. -/
def Known (s : State) : Prop :=
  ∀ p m k, (s.reservations p).Has m k → ∃ u id seq, m = member u id seq ∧ id ∈ s.issued

/-- From `s` to `t` the units are added, and of the other members only those go away whose
time is over. -/
structure Adds (units : List ReservedUnit) (s t : State) : Prop where
  clock : s.clock ≤ t.clock
  issued : s.issued ⊆ t.issued
  known : Known t
  has : ∀ p m k, live t.second k = true →
    ((t.reservations p).Has m k ↔ (s.reservations p).Has m k ∨ ⟨p, m, k⟩ ∈ units)
  count : ∀ p now, t.second ≤ now → (t.reservations p).count (live now) =
    (s.reservations p).count (live now) +
      units.countP (fun unit => unit.productId = p && live now unit.score)

theorem live_mono {now now' score : ℕ} (h : now ≤ now') (hl : live now' score = true) :
    live now score = true := by
  simp only [live, decide_eq_true_eq] at hl ⊢
  omega

section Relation

variable {units units' : List ReservedUnit} {s t u : State}

theorem Adds.refl (h : Known s) : Adds [] s s where
  clock := le_rfl
  issued := List.Subset.refl _
  known := h
  has p m k _ := by simp
  count p now _ := by simp

theorem Adds.trans (h : Adds units s t) (h' : Adds units' t u) : Adds (units ++ units') s u where
  clock := h.clock.trans h'.clock
  issued := List.Subset.trans h.issued h'.issued
  known := h'.known
  has p m k hk := by
    rw [h'.has p m k hk, h.has p m k (live_mono (second_mono h'.clock) hk), List.mem_append, or_assoc]
  count p now hnow := by
    rw [h'.count p now hnow, h.count p now ((second_mono h'.clock).trans hnow), List.countP_append,
      Nat.add_assoc]

theorem Adds.of_same (h : Known s) (hr : t.reservations = s.reservations)
    (hi : s.issued ⊆ t.issued) (hc : s.clock ≤ t.clock) : Adds [] s t where
  clock := hc
  issued := hi
  known p m k hm := by
    rw [hr] at hm
    obtain ⟨u, id, seq, rfl, hid⟩ := h p m k hm
    exact ⟨u, id, seq, rfl, hi hid⟩
  has p m k _ := by simp [hr]
  count p now _ := by simp [hr]

end Relation

section Steps

variable {s t : State} {p now ms : ℕ}

def purge (p now : ℕ) : Command := .zremrangebyscore (reservationKey p) .negInf (.score now)

def addition (p score : ℕ) (m : String) : Command := .zadd (reservationKey p) score m

theorem send_reservations {c : Command} {set : SortedSet String ℕ}
    (h : (s.redis.run s.clock c).2 = s.redis.setSorted (reservationKey p) set) :
    (s.send c).reservations = Function.update s.reservations p set := by
  funext p'
  simp only [State.reservations, State.send, h, Redis.setSorted]
  by_cases hp : p' = p
  · subst hp
    rw [Function.update_self, Function.update_self]
  · rw [Function.update_of_ne (by simpa using hp), Function.update_of_ne hp]
    rfl

theorem Adds.of_update {units : List ReservedUnit} {set : SortedSet String ℕ} (h : Known s)
    (hr : t.reservations = Function.update s.reservations p set) (hi : s.issued ⊆ t.issued)
    (hc : s.clock ≤ t.clock) (hp : ∀ unit ∈ units, unit.productId = p)
    (hknown : ∀ m k, set.Has m k →
      (s.reservations p).Has m k ∨ ∃ u id seq, m = member u id seq ∧ id ∈ t.issued)
    (hhas : ∀ m k, live t.second k = true →
      (set.Has m k ↔ (s.reservations p).Has m k ∨ ⟨p, m, k⟩ ∈ units))
    (hcount : ∀ n, t.second ≤ n → set.count (live n) =
      (s.reservations p).count (live n) + units.countP (fun unit => live n unit.score)) :
    Adds units s t := by
  have hold : ∀ p' m k, (s.reservations p').Has m k →
      ∃ u id seq, m = member u id seq ∧ id ∈ t.issued := by
    intro p' m k hm
    obtain ⟨u, id, seq, rfl, hid⟩ := h p' m k hm
    exact ⟨u, id, seq, rfl, hi hid⟩
  refine ⟨hc, hi, fun p' m k hm => ?_, fun p' m k hk => ?_, fun p' n hn => ?_⟩
  · by_cases hp' : p' = p
    · subst hp'
      rw [hr, Function.update_self] at hm
      exact (hknown m k hm).elim (hold p' m k) id
    · rw [hr, Function.update_of_ne hp'] at hm
      exact hold p' m k hm
  · by_cases hp' : p' = p
    · subst hp'
      rw [hr, Function.update_self]
      exact hhas m k hk
    · rw [hr, Function.update_of_ne hp']
      exact (or_iff_left (fun hm => hp' (hp _ hm))).symm
  · by_cases hp' : p' = p
    · subst hp'
      rw [hr, Function.update_self, hcount n hn]
      congr 1
      exact List.countP_congr (fun unit hu => by simp [hp unit hu])
    · have hnone : units.countP (fun unit => unit.productId = p' && live n unit.score) = 0 :=
        List.countP_eq_zero.mpr (fun unit hu => by simp [hp unit hu, Ne.symm hp'])
      rw [hr, Function.update_of_ne hp', hnone, Nat.add_zero]

theorem adds_purge (h : Known s) (hnow : now ≤ s.second) :
    Adds [] s ((s.send (purge p now)).wait ms) := by
  have hc : s.clock ≤ ((s.send (purge p now)).wait ms).clock := Nat.le_add_right _ _
  have hkeep : ∀ n k, ((s.send (purge p now)).wait ms).second ≤ n → live n k = true →
      between .negInf (.score now) k = false := by
    intro n k hn hk
    have hle := hnow.trans ((second_mono hc).trans hn)
    simp only [live, decide_eq_true_eq] at hk
    simp only [between, decide_eq_false_iff_not]
    omega
  have hr : (s.send (purge p now)).reservations = Function.update s.reservations p
      ((s.reservations p).remove (between .negInf (.score now))) := send_reservations rfl
  refine Adds.of_update h hr (List.Subset.refl _) hc (by simp)
    (fun m k hm => .inl (SortedSet.has_remove.mp hm).1) (fun m k hk => ?_) (fun n hn => ?_)
  · simp [hkeep _ k le_rfl hk]
  · rw [SortedSet.count_remove, List.countP_nil, Nat.add_zero]
    refine SortedSet.count_congr (fun m k _ => ?_)
    cases hl : live n k with
    | false => rfl
    | true => simp [hkeep n k hn hl]

theorem adds_unit (h : Known s) {u seq score : ℕ} {id : Uuid} (hid : id ∈ s.issued)
    (hnew : ∀ k, ¬ (s.reservations p).Has (member u id seq) k) :
    Adds [⟨p, member u id seq, score⟩] s ((s.send (addition p score (member u id seq))).wait ms) := by
  have hr : (s.send (addition p score (member u id seq))).reservations =
      Function.update s.reservations p ((s.reservations p).add score (member u id seq)) :=
    send_reservations rfl
  refine Adds.of_update h hr (List.Subset.refl _) (Nat.le_add_right _ _) (by simp)
    (fun m k hm => ?_) (fun m k _ => ?_) (fun n _ => ?_)
  · obtain ⟨rfl, _⟩ | ⟨_, hm⟩ := SortedSet.has_add.mp hm
    · exact .inr ⟨u, id, seq, rfl, hid⟩
    · exact .inl hm
  · rw [SortedSet.has_add, List.mem_singleton, ReservedUnit.mk.injEq]
    constructor
    · rintro (⟨rfl, rfl⟩ | ⟨_, hm⟩)
      · exact .inr ⟨rfl, rfl, rfl⟩
      · exact .inl hm
    · rintro (hm | ⟨_, hm⟩)
      · refine .inr ⟨?_, hm⟩
        rintro rfl
        exact hnew k hm
      · exact .inl hm
  · rw [SortedSet.count_add hnew, List.countP_singleton]

end Steps

section Runs

variable {s t : State}

theorem runs_tryPromise {c : Command} {x : Exit Error c.Answer}
    (h : Effect.Runs State.exec (RedisClient.tryPromise c) s x t) : ∃ ms,
      (x = .success (s.redis.run s.clock c).1 ∧ t = (s.send c).wait ms) ∨
      (x = .failure .unknownException ∧ (t = s.wait ms ∨ t = (s.send c).wait ms)) := by
  obtain ⟨r, v, ⟨u, ms, hact, rfl⟩, hr⟩ := Effect.runs_perform.mp h
  refine ⟨ms, ?_⟩
  cases r with
  | some answer =>
    obtain ⟨rfl, rfl⟩ := hact
    obtain ⟨rfl, rfl⟩ := Effect.runs_succeed.mp hr
    exact .inl ⟨rfl, rfl⟩
  | none =>
    obtain ⟨rfl, rfl⟩ := Effect.runs_fail.mp hr
    obtain rfl | rfl := hact
    · exact .inr ⟨rfl, .inl rfl⟩
    · exact .inr ⟨rfl, .inr rfl⟩

def unitsOf (p userId score : ℕ) (id : Uuid) (seqs : List ℕ) : List ReservedUnit :=
  seqs.map (fun seq => ⟨p, member userId id seq, score⟩)

theorem runs_addUnits {p userId score : ℕ} {id : Uuid} {seqs : List ℕ} {x : Exit Error (List ℕ)}
    (h : Effect.Runs State.exec (Effect.all
      (seqs.map (ProductStockCacheStore.addUnit p userId score id))) s x t)
    (hs : Known s) (hid : id ∈ s.issued) (hn : seqs.Nodup)
    (hnew : ∀ seq ∈ seqs, ∀ k, ¬ (s.reservations p).Has (member userId id seq) k) :
    ∃ done, done <+: seqs ∧ Adds (unitsOf p userId score id done) s t ∧
      (∀ as, x = .success as → done = seqs) := by
  induction seqs generalizing s t x with
  | nil =>
    obtain ⟨_, rfl⟩ := Effect.runs_succeed.mp h
    exact ⟨[], List.prefix_refl _, .refl hs, fun _ _ => rfl⟩
  | cons seq seqs ih =>
    obtain ⟨hseq, hn⟩ := List.nodup_cons.mp hn
    obtain ⟨y, u, hfirst, hrest⟩ := Effect.runs_flatMap.mp h
    have hone : ∀ ms, Adds (unitsOf p userId score id [seq]) s
        ((s.send (addition p score (member userId id seq))).wait ms) :=
      fun ms => adds_unit hs hid (hnew seq List.mem_cons_self)
    obtain ⟨ms, ⟨rfl, rfl⟩ | ⟨rfl, hu⟩⟩ := runs_tryPromise hfirst
    · have hadds := hone ms
      obtain ⟨z, hall, rfl⟩ := Effect.runs_map.mp hrest
      have hnew' : ∀ seq' ∈ seqs, ∀ k, ¬ (((s.send (addition p score (member userId id seq))).wait
          ms).reservations p).Has (member userId id seq') k := by
        intro seq' hseq' k hm
        rw [wait_reservations, send_reservations rfl, Function.update_self, SortedSet.has_add] at hm
        obtain ⟨heq, _⟩ | ⟨_, hm⟩ := hm
        · exact hseq ((member_inj heq).2.2 ▸ hseq')
        · exact hnew seq' (List.mem_cons_of_mem _ hseq') k hm
      obtain ⟨done, hdone, hadds', hall'⟩ := ih hall hadds.known hid hn hnew'
      refine ⟨seq :: done, List.cons_prefix_cons.mpr ⟨rfl, hdone⟩, hadds.trans hadds', fun as hx => ?_⟩
      obtain ⟨as', hz, _⟩ := Exit.map_eq_success.mp hx
      rw [hall' as' hz]
    · obtain ⟨rfl, rfl⟩ := Effect.runs_fail.mp hrest
      obtain rfl | rfl := hu
      · exact ⟨[], List.nil_prefix, .of_same hs rfl (List.Subset.refl _) (Nat.le_add_right _ _),
          fun _ h => nomatch h⟩
      · exact ⟨[seq], by simp, hone ms, fun _ h => nomatch h⟩

/-- A reservation has a new id, and its units expire together. -/
theorem runs_reserveStock {p userId : ℕ} {quantity : ℤ} {x : Exit Error (List ℕ)}
    (h : Effect.Runs State.exec (ProductStockCacheStore.reserveStock p userId quantity) s x t)
    (hs : Known s) : ∃ id done, id ∉ s.issued ∧ done <+: List.range' 1 quantity.toNat ∧
      Adds (unitsOf p userId (s.second + ProductStockCacheStore.ttl) id done) s t ∧
      (∀ as, x = .success as → done = List.range' 1 quantity.toNat) := by
  obtain ⟨now, u, hnow, h⟩ := Effect.runs_perform.mp h
  obtain ⟨rfl, ms, rfl⟩ := exec_dateNow hnow
  obtain ⟨id, v, hmake, h⟩ := Effect.runs_perform.mp h
  obtain ⟨hid, ms', rfl⟩ := exec_randomUUID hmake
  have hnew : ∀ seq ∈ List.range' 1 quantity.toNat, ∀ k,
      ¬ (s.reservations p).Has (member userId id seq) k := by
    intro seq _ k hm
    obtain ⟨u, id', seq', heq, hid'⟩ := hs p _ k hm
    obtain ⟨_, rfl, _⟩ := member_inj heq
    exact hid hid'
  have hmade : Adds [] s (({ s.wait ms with issued := id :: s.issued } : State).wait ms') :=
    .of_same hs rfl (List.subset_cons_self _ _) ((Nat.le_add_right _ _).trans (Nat.le_add_right _ _))
  obtain ⟨done, hdone, hadds, hall⟩ :=
    runs_addUnits h hmade.known List.mem_cons_self List.nodup_range' hnew
  exact ⟨id, done, hid, hdone, hmade.trans hadds, hall⟩

theorem runs_countReservedStockAt {p now : ℕ} {x : Exit Error ℕ}
    (h : Effect.Runs State.exec (ProductStockCacheStore.countReservedStockAt now p) s x t)
    (hs : Known s) (hnow : now ≤ s.second) :
    Adds [] s t ∧ x ≠ .defect ∧ ∀ n, x = .success n → n = (s.reservations p).count (live now) := by
  obtain ⟨y, u, hpurge, hcount⟩ := Effect.runs_flatMap.mp h
  obtain ⟨ms, ⟨rfl, rfl⟩ | ⟨rfl, hu⟩⟩ := runs_tryPromise hpurge
  · have hadds : Adds [] s ((s.send (purge p now)).wait ms) := adds_purge hs hnow
    have hr : (s.send (purge p now)).reservations = Function.update s.reservations p
        ((s.reservations p).remove (between .negInf (.score now))) := send_reservations rfl
    have hfound : ((s.send (purge p now)).reservations p).count (between .negInf .posInf) =
        (s.reservations p).count (live now) := by
      rw [hr, Function.update_self, SortedSet.count_remove]
      refine SortedSet.count_congr (fun m k _ => ?_)
      rw [Bool.eq_iff_iff]
      simp [between, live]
    obtain ⟨ms', ⟨rfl, rfl⟩ | ⟨rfl, ht⟩⟩ := runs_tryPromise hcount
    · refine ⟨hadds.trans (.of_same hadds.known rfl (List.Subset.refl _) (Nat.le_add_right _ _)),
        by rintro ⟨⟩, fun n hn => ?_⟩
      rw [← hfound, ← Exit.success.inj hn]
      rfl
    · refine ⟨hadds.trans ?_, by rintro ⟨⟩, fun _ h => nomatch h⟩
      obtain rfl | rfl := ht
      · exact .of_same hadds.known rfl (List.Subset.refl _) (Nat.le_add_right _ _)
      · exact .of_same hadds.known rfl (List.Subset.refl _) (Nat.le_add_right _ _)
  · obtain ⟨rfl, rfl⟩ := Effect.runs_fail.mp hcount
    refine ⟨?_, by rintro ⟨⟩, fun _ h => nomatch h⟩
    obtain rfl | rfl := hu
    · exact .of_same hs rfl (List.Subset.refl _) (Nat.le_add_right _ _)
    · exact adds_purge hs hnow

end Runs

section Scenes

open EcommerceService.Storefront.ProductStockCacheStore

theorem tryPromise_run (c : Command) (s : State) : Effect.Runs State.exec (RedisClient.tryPromise c) s
    (.success (s.redis.run s.clock c).1) (s.send c) :=
  Effect.runs_perform.mpr ⟨some _, s.send c, ⟨s.send c, 0, ⟨rfl, rfl⟩, rfl⟩, .succeed _ _⟩

theorem countReservedStockAt_run (s : State) (p now : ℕ) : ∃ n redis,
    Effect.Runs State.exec (countReservedStockAt now p) s (.success n) { s with redis := redis } :=
  ⟨_, _, Effect.runs_flatMap_success.mpr ⟨_, _, tryPromise_run _ _, tryPromise_run _ _⟩⟩

theorem reserveStock_run (s : State) (p userId : ℕ) (quantity : ℤ) {id : Uuid} (hid : id ∉ s.issued) :
    ∃ as redis, Effect.Runs State.exec (reserveStock p userId quantity) s (.success as)
      { s with redis := redis, issued := id :: s.issued } := by
  have hunit : ∀ q ∈ (List.range' 1 quantity.toNat).map (addUnit p userId (s.second + ttl) id),
      ∀ u : State, (∃ redis, u = { s with redis := redis, issued := id :: s.issued }) →
        ∃ a t, Effect.Runs State.exec q u (.success a) t ∧
          ∃ redis, t = { s with redis := redis, issued := id :: s.issued } := by
    rintro q hq u ⟨redis, rfl⟩
    obtain ⟨seq, _, rfl⟩ := List.mem_map.mp hq
    exact ⟨_, _, tryPromise_run _ _, _, rfl⟩
  obtain ⟨as, _, hrun, redis, rfl⟩ := Effect.runs_all hunit ⟨s.redis, rfl⟩
  exact ⟨as, redis, .perform ⟨s, 0, ⟨rfl, rfl⟩, rfl⟩ (.perform ⟨_, 0, ⟨hid, rfl⟩, rfl⟩ hrun)⟩

theorem getById_run {s : State} {p : ℕ} {n : ℤ} (h : s.world.store.db.productStock p = some n) :
    Effect.Runs State.exec (ProductStockRepository.getById p) s (.success ⟨p, n⟩) s :=
  Effect.runs_catchAll.mpr ⟨.success ⟨p, n⟩, s, Effect.runs_map_success.mpr ⟨n,
    Effect.runs_perform.mpr ⟨some n, s, ⟨s, 0, ⟨h, rfl⟩, rfl⟩, .succeed n s⟩, rfl⟩, .succeed _ s⟩

theorem reserveStockAt_admits (userId : ℕ) {s : State} {p now : ℕ} {stock quantity : ℤ} (hs : Known s)
    (hnow : now ≤ s.second) (hstock : s.world.store.db.productStock p = some stock)
    (hroom : ((s.reservations p).count (live now) : ℤ) + quantity ≤ ProductService.cap stock) :
    ∃ n redis, Known { s with redis := redis } ∧
      Effect.Runs State.exec (ProductStockRepository.getById p) s (.success ⟨p, stock⟩) s ∧
      Effect.Runs State.exec (ProductStockCacheStore.countReservedStockAt now p) s (.success n)
        { s with redis := redis } ∧
      (∀ p', ({ s with redis := redis } : State).liveCount p' = s.liveCount p') ∧
      ProductService.reserveIfAvailable ⟨p, userId, quantity⟩ (ProductService.cap stock - n) =
        ProductService.reserve ⟨p, userId, quantity⟩ := by
  obtain ⟨n, redis, hcount⟩ := countReservedStockAt_run s p now
  obtain ⟨hadds, _, hn⟩ := runs_countReservedStockAt hcount hs hnow
  refine ⟨n, redis, hadds.known, getById_run hstock, hcount,
    fun p' => hadds.count p' s.second le_rfl, ?_⟩
  rw [ProductService.reserveIfAvailable, if_pos]
  rw [hn n rfl]
  exact le_sub_iff_add_le'.mpr hroom

def opened : State :=
  ⟨⟨⟨⟨fun _ => none, [], fun _ => none, fun _ => none, [], fun _ => none⟩, []⟩, [], []⟩, fun _ => none,
    ⟨fun _ => none, fun _ => .empty⟩, 0, []⟩

def firstId : Uuid := ⟨"a", by decide⟩

end Scenes

end EcommerceService.Reservations
