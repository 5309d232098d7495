import Mathlib.Data.List.Basic
import EcommerceService.Database
import EcommerceService.Lib.SortedSets

namespace EcommerceService.Cache

open EcommerceService.Models EcommerceService.SortedSets

structure ProductModel where
  id : ℕ
  name : String
  price : ℚ
deriving DecidableEq, Repr

/-- The text that `JSON.stringify` makes of a product. -/
structure ProductText where
  written : ProductModel
deriving DecidableEq, Repr

inductive Bound where
  | negInf
  | score (n : ℕ)
  | posInf
deriving DecidableEq, Repr

def between : Bound → Bound → ℕ → Bool
  | .posInf, _, _ => false
  | _, .negInf, _ => false
  | .negInf, .posInf, _ => true
  | .negInf, .score max, n => n ≤ max
  | .score min, .posInf, n => min ≤ n
  | .score min, .score max, n => min ≤ n && n ≤ max

inductive Command where
  | get (key : String)
  | set (key : String) (value : ProductText) (seconds : ℕ)
  | zadd (key : String) (score : ℕ) (member : String)
  | zcount (key : String) (min max : Bound)
  | zremrangebyscore (key : String) (min max : Bound)

@[reducible] def Command.Answer : Command → Type
  | get _ => Option ProductText
  | set _ _ _ => Unit
  | zadd _ _ _ => ℕ
  | zcount _ _ _ => ℕ
  | zremrangebyscore _ _ _ => ℕ

/-- The keys with a text, each with the millisecond at which it expires, and those with a
sorted set of scored members. -/
structure Redis where
  strings : String → Option (ProductText × ℕ)
  sortedSets : String → SortedSet String ℕ

namespace Redis

def find (redis : Redis) (clock : ℕ) (key : String) : Option ProductText :=
  match redis.strings key with
  | some (value, expiry) => if clock < expiry then some value else none
  | none => none

def setSorted (redis : Redis) (key : String) (set : SortedSet String ℕ) : Redis :=
  { redis with sortedSets := Function.update redis.sortedSets key set }

/-- The answer to a command at the millisecond `clock`, and what it makes of the data. -/
def run (clock : ℕ) (redis : Redis) : (c : Command) → c.Answer × Redis
  | .get key => (redis.find clock key, redis)
  | .set key value seconds => ((), { redis with
      strings := Function.update redis.strings key (some (value, clock + 1000 * seconds)) })
  | .zadd key score member =>
      (if member ∈ (redis.sortedSets key).entries.map Prod.fst then 0 else 1,
        redis.setSorted key ((redis.sortedSets key).add score member))
  | .zcount key min max => ((redis.sortedSets key).count (between min max), redis)
  | .zremrangebyscore key min max => ((redis.sortedSets key).count (between min max),
      redis.setSorted key ((redis.sortedSets key).remove (between min max)))

end Redis

structure Uuid where
  text : String
  plain : ':' ∉ text.toList
deriving DecidableEq

def member (userId : ℕ) (reservationId : Uuid) (seq : ℕ) : String :=
  "user:" ++ (Nat.repr userId ++ (":" ++ (reservationId.text ++ (":seq:" ++ Nat.repr seq))))

section Names

theorem repr_plain (n : ℕ) : ':' ∉ (Nat.repr n).toList := by
  rw [Nat.toList_repr]
  intro h
  cases Nat.isDigit_of_mem_toDigits (by omega) (by omega) h

theorem plain_split {a b c d : List Char} (ha : ':' ∉ a) (hc : ':' ∉ c)
    (h : a ++ ':' :: b = c ++ ':' :: d) : a = c ∧ b = d := by
  induction a generalizing c with
  | nil =>
    cases c with
    | nil => exact ⟨rfl, (List.cons.inj h).2⟩
    | cons x c =>
      have hx : ':' = x := (List.cons.inj h).1
      exact absurd (hx ▸ List.mem_cons_self) hc
  | cons y a ih =>
    cases c with
    | nil =>
      have hy : y = ':' := (List.cons.inj h).1
      exact absurd (hy ▸ List.mem_cons_self) ha
    | cons x c =>
      obtain ⟨rfl, hrest⟩ := List.cons.inj h
      obtain ⟨rfl, rfl⟩ := ih (fun hm => ha (List.mem_cons_of_mem _ hm))
        (fun hm => hc (List.mem_cons_of_mem _ hm)) hrest
      exact ⟨rfl, rfl⟩

theorem member_inj {u u' seq seq' : ℕ} {r r' : Uuid} (h : member u r seq = member u' r' seq') :
    u = u' ∧ r = r' ∧ seq = seq' := by
  have hl := congrArg String.toList h
  simp only [member, String.toList_append, List.append_cancel_left_eq] at hl
  obtain ⟨hu, hrest⟩ := plain_split (repr_plain u) (repr_plain u') hl
  obtain ⟨hr, hseq⟩ := plain_split r.plain r'.plain hrest
  refine ⟨repr_inj.mp (String.toList_inj.mp hu), ?_, ?_⟩
  · cases r
    cases r'
    obtain rfl := String.toList_inj.mp hr
    rfl
  · exact repr_inj.mp (String.toList_inj.mp (by simpa using hseq))

end Names

end EcommerceService.Cache
