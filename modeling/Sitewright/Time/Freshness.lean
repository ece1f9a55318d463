import Sitewright.Error
import Sitewright.Time.DateTime

/-!
Whether something was written after a time that a client knows. Clients know whole seconds, so both
times are cut to them first.
-/

namespace Sitewright.Time.DateTime

def toSecond (t : DateTime) : DateTime := { t with micro := 0 }

def isModifiedSince (written known : DateTime) : Bool :=
  decide (known.toSecond.instant < written.toSecond.instant)

theorem isModifiedSince_naive {t : DateTime} (universal : t.offset.getD 0 = 0) (known : DateTime) :
    t.naive.isModifiedSince known = t.isModifiedSince known := by
  simp [isModifiedSince, toSecond, naive, instant, timeOfDay, universal]

/-- A time whose offset is no offset of a zone can be compared with nothing. -/
def checkZone (t : DateTime) : Except Error Unit :=
  if t.HasZone then .ok () else .error .offsetOutOfRange

end Sitewright.Time.DateTime
