/-
Dates with a time of day.

The time counts nanoseconds.  A leap second is kept as the second before it with a
whole second of nanoseconds or more, so that times compare in order.  A leap second
may stand behind any second, though `Datetime.of?` builds one only at the end of a
minute, where it shows as second 60.  Elsewhere it shows as the second that follows.
-/
import QueryExpr.Calendar.Date

namespace QueryExpr
namespace Calendar

def nanosPerSecond : Nat := 1000000000

/-- The time exists.  Nanoseconds beyond a second belong to a leap second. -/
def IsTime (hour minute second nanos : Nat) : Prop :=
  hour < 24 ∧ minute < 60 ∧ second < 60 ∧ nanos < 2 * nanosPerSecond

instance (hour minute second nanos : Nat) : Decidable (IsTime hour minute second nanos) :=
  inferInstanceAs (Decidable (_ ∧ _ ∧ _ ∧ _))

/-- A leap second comes at the end of a minute. -/
def LeapEndsMinute (second nanos : Nat) : Prop := nanos < nanosPerSecond ∨ second = 59

instance (second nanos : Nat) : Decidable (LeapEndsMinute second nanos) :=
  inferInstanceAs (Decidable (_ ∨ _))

end Calendar

open Calendar in
structure Datetime where
  date : Date
  hour : Nat
  minute : Nat
  second : Nat
  nanos : Nat
  isTime : IsTime hour minute second nanos
  deriving DecidableEq

namespace Datetime

open Calendar

/-- The datetime of the given fields, with a leap second at the end of a minute only. -/
def of? (date : Date) (hour minute second nanos : Nat) : Option Datetime :=
  if h : IsTime hour minute second nanos ∧ LeapEndsMinute second nanos then
    some ⟨date, hour, minute, second, nanos, h.1⟩
  else none

theorem of?_self {t : Datetime} (h : LeapEndsMinute t.second t.nanos) :
    of? t.date t.hour t.minute t.second t.nanos = some t := by
  rw [of?, dif_pos ⟨t.isTime, h⟩]

theorem isTime_of_of? {d : Date} {hour minute second nanos : Nat} {x : Datetime}
    (h : of? d hour minute second nanos = some x) : IsTime hour minute second nanos := by
  unfold of? at h
  split at h
  · rename_i htime
    exact htime.1
  · cases h

/-- The fraction of a second in three, six or nine digits, the fewest that are exact.
A whole second has none. -/
def writeFraction (nanos : Nat) : List Char :=
  if nanos = 0 then []
  else if nanos % 1000000 = 0 then '.' :: Text.padded 3 (nanos / 1000000)
  else if nanos % 1000 = 0 then '.' :: Text.padded 6 (nanos / 1000)
  else '.' :: Text.padded 9 nanos

/-- A leap second shows as the second behind the one it is kept as. -/
def write (t : Datetime) : List Char :=
  let leap := nanosPerSecond ≤ t.nanos
  let second := if leap then t.second + 1 else t.second
  let nanos := if leap then t.nanos - nanosPerSecond else t.nanos
  t.date.write ++ ' ' :: Text.padded 2 t.hour ++ ':' :: Text.padded 2 t.minute ++
    ':' :: Text.padded 2 second ++ writeFraction nanos

end Datetime

end QueryExpr
