import WaslaCore.Data.Calendar
import WaslaCore.Money.Domain

/-!
Subscriptions, plans and periods. A period is the invoice: its price is copied
from the plan when it is built, and it is paid by one payment authorization
whose business reference is derived from the period itself.
-/

namespace WaslaCore.Billing

open Data Platform

inductive BillingInterval where
  | day
  | week
  | month
  | year
  deriving DecidableEq, Repr

inductive PlanStatus where
  | draft
  | active
  | retired
  deriving DecidableEq, Repr

def PlanStatus.text : PlanStatus → String
  | .draft => "draft"
  | .active => "active"
  | .retired => "retired"

inductive SubscriptionStatus where
  | active
  | pastDue
  | cancelled
  | expired
  deriving DecidableEq, Repr

inductive PeriodStatus where
  | pending
  | settled
  | uncollectible
  | voided
  deriving DecidableEq, Repr

/-- The same owner shape as a wallet. -/
abbrev SubscriptionOwnerType := Money.WalletOwnerType

structure Plan where
  planId : String
  code : String
  name : String
  currency : String
  amountMinor : Int
  billingInterval : BillingInterval
  intervalCount : Int
  status : PlanStatus
  createdAt : Int
  activatedAt : Option Int
  retiredAt : Option Int
  deriving DecidableEq, Repr

/-- `limitValue` null is granted but not metered, zero is explicitly none. -/
structure PlanGrant where
  planId : String
  featureKey : String
  limitValue : Option Int
  deriving DecidableEq, Repr

structure Subscription where
  subscriptionId : String
  ownerType : SubscriptionOwnerType
  ownerId : String
  planId : String
  walletId : String
  status : SubscriptionStatus
  createdAt : Int
  cancelledAt : Option Int
  cancelReason : Option String
  endedAt : Option Int
  deriving DecidableEq, Repr

/-- `authorizationId` is set exactly when an amount other than zero settled. -/
structure SubscriptionPeriod where
  periodId : String
  subscriptionId : String
  sequence : Int
  startsAt : Int
  endsAt : Int
  currency : String
  amountMinor : Int
  status : PeriodStatus
  authorizationId : Option String
  createdAt : Int
  settledAt : Option Int
  uncollectibleReason : Option String
  deriving DecidableEq, Repr

/-- Half-open: a period covers its start instant and not its end instant. -/
def periodCovers (period : SubscriptionPeriod) (instant : Int) : Bool :=
  period.startsAt ≤ instant && instant < period.endsAt

/-! ### Calendar arithmetic -/

def msPerDay : Int := 86400000

/-- The largest time value of a `Date`. -/
def maxTime : Int := 8640000000000000

/-- The `Date` of a time value; one out of range is invalid. -/
def timeClip (milliseconds : Int) : Option Int :=
  if -maxTime ≤ milliseconds ∧ milliseconds ≤ maxTime then some milliseconds else none

/-- The year `Date.UTC` takes a number for: 0 to 99 are 1900 to 1999. -/
def fullYear (year : Int) : Int := if 0 ≤ year ∧ year ≤ 99 then 1900 + year else year

/-- Day zero of the month after is the last of this one; months count from zero. -/
def lastDayOf (year month : Int) : Option Int :=
  let next := month + 1
  let dayZero := daysFromCivil (fullYear year + next / 12) (next % 12 + 1) 1 - 1
  (timeClip (dayZero * msPerDay)).map (fun _ => (civilFromDays dayZero).2.2)

/-- The end of a billing interval that starts at `from`, which may be an invalid date.
Months and years keep the day of the month, clamped to the last one. -/
def advanceInterval (start : Int) (interval : BillingInterval) (count : Int) :
    Except Thrown (Option Int) :=
  if count ≤ 0 then .error (.other "interval_count must be a positive integer")
  else
    let (year, month, day) := civilFromDays (start / msPerDay)
    let byMonths (months : Int) : Option Int :=
      let target := month - 1 + months
      let targetYear := year + target / 12
      let targetMonth := target % 12
      match lastDayOf targetYear targetMonth with
      | none => none
      | some lastDay =>
          timeClip (daysFromCivil (fullYear targetYear) (targetMonth + 1) (min day lastDay) *
            msPerDay + start % msPerDay)
    match interval with
    | .day => .ok (timeClip (start + count * msPerDay))
    | .week => .ok (timeClip (start + 7 * count * msPerDay))
    | .month => .ok (byMonths count)
    | .year => .ok (byMonths (count * 12))

/-- An invalid date has no text. -/
def toISOString : Option Int → Except Thrown Int
  | some instant => .ok instant
  | none => .error (.other "Invalid time value")

/-- A period that starts on 31 January 2023 and runs a month ends on 28 February. -/
example : (advanceInterval (daysFromCivil 2023 1 31 * msPerDay) .month 1).toOption =
    some (some (daysFromCivil 2023 2 28 * msPerDay)) := by decide

/-- The hold that pays for a period, keyed on the period itself. -/
def periodChargeReference (periodId : String) : String := "subscription-period:" ++ periodId

/-- Two periods never share a hold. -/
theorem periodChargeReference_injective {first second : String}
    (h : periodChargeReference first = periodChargeReference second) : first = second :=
  (String.append_right_inj "subscription-period:").mp h

end WaslaCore.Billing
