import Infragraph.Lib.Dict
import Infragraph.Lib.FixedWindow
import Infragraph.Spec.Collector

/-! The rate limiter of the control plane: a window for each key, and windows that are
long over are dropped when there are many. -/

namespace Infragraph

open FixedWindow

/-- `Time.Sub`, which stays within int64. -/
def subtract (t u : Time) : ℤ := max (-2 ^ 63) (min (2 ^ 63 - 1) (t - u))

structure Limiter where
  windows : Dict String Window
  limit : ℕ
  /-- a `time.Duration` -/
  period : ℤ

/-- A call of `allow`: its key, the clock, and the order in which it ranges over the map. -/
structure AllowCall where
  key : String
  now : Time
  order : Iteration String

def Limiter.evictOne (l : Limiter) (now : Time) (windows : Dict String Window) (candidate : String) :
    Dict String Window :=
  match windows.find candidate with
  | some value => if int64 (2 * l.period) < subtract now value.start then windows.erase candidate else windows
  | none => windows

def Limiter.evict (l : Limiter) (c : AllowCall) : Dict String Window :=
  (c.order.list l.windows.keys).foldl (l.evictOne c.now) l.windows

/-- A call on windows from which the old ones have been deleted. -/
def Limiter.count (l : Limiter) (windows : Dict String Window) (c : AllowCall) : Bool × Limiter :=
  let w := (windows.find c.key).getD ⟨0, 0⟩
  let w := if l.period < subtract c.now w.start then ⟨c.now, 0⟩ else w
  let w : Window := ⟨w.start, w.count + 1⟩
  (w.count ≤ l.limit, { l with windows := windows.set c.key w })

def Limiter.allow (l : Limiter) (c : AllowCall) : Bool × Limiter :=
  l.count (if 10000 < l.windows.keys.card then l.evict c else l.windows) c

def Limiter.allowKeeping (l : Limiter) (c : AllowCall) : Bool × Limiter := l.count l.windows c

def Limiter.answers (l : Limiter) : List AllowCall → List Bool
  | [] => []
  | c :: cs => (l.allow c).1 :: (l.allow c).2.answers cs

def Limiter.answersKeeping (l : Limiter) : List AllowCall → List Bool
  | [] => []
  | c :: cs => (l.allowKeeping c).1 :: (l.allowKeeping c).2.answersKeeping cs

def newLimiter (limit : ℕ) (period : ℤ) : Limiter := ⟨∅, limit, period⟩

def answersOn (key : String) (calls : List AllowCall) (answers : List Bool) : List Bool :=
  ((calls.zip answers).filter fun p => p.1.key = key).map (·.2)

/-- The allowed calls on a key in a period from `a` on. -/
def allowedWithin (key : String) (period a : ℤ) (calls : List AllowCall) (answers : List Bool) : ℕ :=
  ((calls.zip answers).filter fun p =>
    p.1.key = key ∧ p.2 = true ∧ a ≤ p.1.now ∧ p.1.now ≤ a + period).length

/-- Deleting windows changes no answer, the keys do not touch each other, and a key has
at most twice the limit in any period. -/
structure FairLimiter (limit : ℕ) (period : ℤ) (calls : List AllowCall) : Prop where
  transparent : (newLimiter limit period).answers calls = (newLimiter limit period).answersKeeping calls
  separate : ∀ key, answersOn key calls ((newLimiter limit period).answers calls) =
    (newLimiter limit period).answers (calls.filter (·.key = key))
  bounded : ∀ key a, allowedWithin key period a calls ((newLimiter limit period).answers calls) ≤ 2 * limit

end Infragraph
