import Mathlib.Algebra.BigOperators.Group.List.Basic
import Mathlib.Algebra.Order.BigOperators.Group.List
import Mathlib.Data.Rat.Defs
import Mathlib.Algebra.Order.Ring.Rat
import EcommerceService.OrderLife

namespace EcommerceService.Market

open EcommerceService.OrderLife

structure Line where
  productId : ℕ
  quantity : ℤ
  price : ℚ
deriving DecidableEq, Repr

structure Order where
  userId : ℕ
  lines : List Line
  phase : Phase
deriving DecidableEq, Repr

namespace Order

def units (order : Order) (p : ℕ) : ℤ :=
  ((order.lines.filter (fun line => line.productId = p)).map (·.quantity)).sum

def total (order : Order) : ℚ := (order.lines.map (fun line => line.price * (line.quantity : ℚ))).sum

def Covered (order : Order) (stock : ℕ → Option ℤ) : Prop :=
  ∀ line ∈ order.lines, ∀ n ∈ stock line.productId, order.units line.productId ≤ n

instance (order : Order) (stock : ℕ → Option ℤ) : Decidable (order.Covered stock) :=
  inferInstanceAs (Decidable (∀ line ∈ order.lines, ∀ n ∈ stock line.productId,
    order.units line.productId ≤ n))

end Order

structure Goods where
  stock : ℕ → Option ℤ
  wallet : ℕ → Option (ℕ × ℚ)

/-- What can happen to an order. It is paid from some wallet. -/
inductive Deed where
  | place (userId : ℕ) (lines : List Line)
  | reject
  | cancel
  | deduct
  | refuse
  | restore
  | debit (walletId : ℕ)
  | pay
deriving DecidableEq, Repr

namespace Deed

def event : Deed → LifeEvent
  | place _ _ => .place
  | reject => .reject
  | cancel => .cancel
  | deduct => .deduct
  | refuse => .refuse
  | restore => .restore
  | debit _ => .debit
  | pay => .pay

def move (order : Order) (goods : Goods) : Deed → Option Goods
  | deduct =>
      if order.Covered goods.stock then
        some { goods with stock := fun p => (goods.stock p).map (· - order.units p) }
      else none
  | restore => some { goods with stock := fun p => (goods.stock p).map (· + order.units p) }
  | debit walletId => (goods.wallet walletId).bind (fun wallet =>
      if wallet.1 = order.userId ∧ order.total ≤ wallet.2 then
        some { goods with
          wallet := Function.update goods.wallet walletId (some (wallet.1, wallet.2 - order.total)) }
      else none)
  | _ => some goods

end Deed

/-- What the saga is for: a market where all that happens to an order happens at once. It has no
messages, no events to send, no retries and no processes. -/
structure State where
  goods : Goods
  order : ℕ → Option Order

namespace State

def phase (m : State) (o : ℕ) : Phase := ((m.order o).map (·.phase)).getD .absent

def act (m : State) (o : ℕ) (deed : Deed) : Option State :=
  match m.order o, deed with
  | none, .place userId lines =>
      some { m with order := Function.update m.order o (some ⟨userId, lines, .placed⟩) }
  | none, _ => none
  | some order, deed => (next order.phase deed.event).bind (fun ph =>
      (deed.move order m.goods).map (fun goods =>
        ⟨goods, Function.update m.order o (some { order with phase := ph })⟩))

def step (m : State) (turn : ℕ × Deed) : Option State := m.act turn.1 turn.2

variable {m m' : State} {o userId : ℕ} {lines : List Line} {deed : Deed}

theorem phase_none (h : m.order o = none) : m.phase o = .absent := by
  rw [phase, h]
  rfl

theorem phase_some {order : Order} (h : m.order o = some order) : m.phase o = order.phase := by
  rw [phase, h]
  rfl

theorem act_cases (h : m.act o deed = some m') :
    (∃ userId lines, deed = .place userId lines ∧ m.order o = none ∧
      m' = { m with order := Function.update m.order o (some ⟨userId, lines, .placed⟩) }) ∨
    ∃ order ph goods, m.order o = some order ∧ next order.phase deed.event = some ph ∧
      deed.move order m.goods = some goods ∧
      m' = ⟨goods, Function.update m.order o (some { order with phase := ph })⟩ := by
  unfold act at h
  cases horder : m.order o with
  | none =>
    simp only [horder] at h
    cases deed with
    | place userId lines => exact .inl ⟨userId, lines, rfl, rfl, (Option.some.inj h).symm⟩
    | _ => cases h
  | some order =>
    simp only [horder] at h
    obtain ⟨ph, hph, h⟩ := Option.bind_eq_some_iff.mp h
    obtain ⟨goods, hgoods, h⟩ := Option.map_eq_some_iff.mp h
    exact .inr ⟨order, ph, goods, rfl, hph, hgoods, h.symm⟩

theorem act_place (h : m.order o = none) : m.act o (.place userId lines) =
    some { m with order := Function.update m.order o (some ⟨userId, lines, .placed⟩) } := by
  simp only [act, h]

theorem act_next {order : Order} {ph : Phase} {goods : Goods} (horder : m.order o = some order)
    (hph : next order.phase deed.event = some ph) (hgoods : deed.move order m.goods = some goods) :
    m.act o deed = some ⟨goods, Function.update m.order o (some { order with phase := ph })⟩ := by
  simp only [act, horder, hph, hgoods, Option.bind_some, Option.map_some]

end State

section Solid

/-- No stock and no wallet is below zero. -/
structure Solid (goods : Goods) : Prop where
  stock : ∀ p n, goods.stock p = some n → 0 ≤ n
  wallet : ∀ id wallet, goods.wallet id = some wallet → 0 ≤ wallet.2

def Order.Positive (order : Order) : Prop := ∀ line ∈ order.lines, 0 ≤ line.quantity

variable {goods goods' : Goods} {order : Order} {deed : Deed} {m m' : State} {turn : ℕ × Deed}
  {turns : List (ℕ × Deed)}

theorem Order.Positive.units (h : order.Positive) (p : ℕ) : 0 ≤ order.units p := by
  refine List.sum_nonneg (fun n hn => ?_)
  obtain ⟨line, hline, rfl⟩ := List.mem_map.mp hn
  exact h line (List.mem_of_mem_filter hline)

theorem Order.units_of_not_mem {p : ℕ} (h : p ∉ order.lines.map (·.productId)) :
    order.units p = 0 := by
  have hnil : order.lines.filter (fun line => line.productId = p) = [] := by
    refine List.filter_eq_nil_iff.mpr (fun line hline hp => h ?_)
    exact List.mem_map.mpr ⟨line, hline, of_decide_eq_true hp⟩
  rw [Order.units, hnil]
  rfl

theorem Order.Covered.left {stock : ℕ → Option ℤ} (h : order.Covered stock) {p : ℕ} {n : ℤ}
    (hstock : stock p = some n) (hn : 0 ≤ n) : 0 ≤ n - order.units p := by
  by_cases hp : p ∈ order.lines.map (·.productId)
  · obtain ⟨line, hline, rfl⟩ := List.mem_map.mp hp
    have hunits := h line hline n hstock
    omega
  · rw [Order.units_of_not_mem hp]
    omega

theorem Solid.move (h : Solid goods) (ho : order.Positive)
    (hmove : deed.move order goods = some goods') : Solid goods' := by
  cases deed with
  | deduct =>
    rw [Deed.move] at hmove
    obtain ⟨hcovered, hgoods⟩ := Option.ite_none_right_eq_some.mp hmove
    cases hgoods
    refine ⟨fun p n hn => ?_, h.wallet⟩
    obtain ⟨n₀, hn₀, rfl⟩ := Option.map_eq_some_iff.mp hn
    exact hcovered.left hn₀ (h.stock p n₀ hn₀)
  | restore =>
    cases hmove
    refine ⟨fun p n hn => ?_, h.wallet⟩
    obtain ⟨n₀, hn₀, rfl⟩ := Option.map_eq_some_iff.mp hn
    exact add_nonneg (h.stock p n₀ hn₀) (ho.units p)
  | debit walletId =>
    obtain ⟨wallet, _, hmove⟩ := Option.bind_eq_some_iff.mp hmove
    obtain ⟨⟨_, hle⟩, hgoods⟩ := Option.ite_none_right_eq_some.mp hmove
    cases hgoods
    refine ⟨h.stock, fun id wallet' hwallet => ?_⟩
    by_cases hid : id = walletId
    · subst hid
      cases (Function.update_self id _ goods.wallet).symm.trans hwallet
      exact sub_nonneg.mpr hle
    · exact h.wallet id wallet' ((Function.update_of_ne hid _ _).symm.trans hwallet)
  | _ =>
    cases hmove
    exact h

theorem State.step_lines (h : m.step turn = some m') {o : ℕ} (horder : m.order o = some order) :
    ∃ order', m'.order o = some order' ∧ order'.lines = order.lines := by
  obtain ⟨userId, lines, _, hnone, rfl⟩ | ⟨order₀, ph, goods, horder₀, _, _, rfl⟩ := State.act_cases h
  · have hne : o ≠ turn.1 := by
      rintro rfl
      cases hnone.symm.trans horder
    exact ⟨order, (Function.update_of_ne hne _ _).trans horder, rfl⟩
  · by_cases ho : o = turn.1
    · subst ho
      cases horder₀.symm.trans horder
      exact ⟨_, Function.update_self _ _ _, rfl⟩
    · exact ⟨order, (Function.update_of_ne ho _ _).trans horder, rfl⟩

theorem State.run_lines (h : Monitor.run State.step m turns = some m') {o : ℕ}
    (horder : m.order o = some order) :
    ∃ order', m'.order o = some order' ∧ order'.lines = order.lines := by
  induction turns generalizing m order with
  | nil =>
    cases h
    exact ⟨order, horder, rfl⟩
  | cons turn turns ih =>
    obtain ⟨m₁, hstep, hrun⟩ := Monitor.run_cons_some h
    obtain ⟨order₁, horder₁, hlines⟩ := State.step_lines hstep horder
    obtain ⟨order', horder', hlines'⟩ := ih hrun horder₁
    exact ⟨order', horder', hlines'.trans hlines⟩

/-- No run of the market takes more than there is. -/
theorem State.run_solid (h : Monitor.run State.step m turns = some m') (hm : Solid m.goods)
    (ho : ∀ o order, m'.order o = some order → order.Positive) : Solid m'.goods := by
  induction turns generalizing m with
  | nil =>
    cases h
    exact hm
  | cons turn turns ih =>
    obtain ⟨m₁, hstep, hrun⟩ := Monitor.run_cons_some h
    refine ih hrun ?_
    obtain ⟨_, _, _, _, rfl⟩ | ⟨order, ph, goods, horder, _, hmove, rfl⟩ := State.act_cases hstep
    · exact hm
    · obtain ⟨order', horder', hlines⟩ := State.run_lines (m := m) h horder
      have hpositive : order.Positive := by
        intro line hline
        exact ho _ _ horder' line (hlines ▸ hline)
      exact hm.move hpositive hmove

end Solid

end EcommerceService.Market
