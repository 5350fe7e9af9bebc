import WaslaCore.Platform.Errors

/-!
Reputation signals and the standing derived from them. A signal is stored as it was
reported; the only thing that is ever added to it is the marker of its retraction. A
standing is an answer, folded from the signals on every read and stored nowhere.
-/

namespace WaslaCore.Reputation

inductive ReputationSubjectType where
  | identity
  | organization
  deriving DecidableEq, Repr

/-- `isReputationSubjectType`. -/
def ReputationSubjectType.ofName : String → Option ReputationSubjectType
  | "identity" => some .identity
  | "organization" => some .organization
  | _ => none

def ReputationSubjectType.name : ReputationSubjectType → String
  | .identity => "identity"
  | .organization => "organization"

/-- The closed vocabulary. Only a service rating carries a number. -/
inductive ReputationSignalKind where
  | serviceRating
  | completion
  | cancellation
  | dispute
  | compliment
  | complaint
  deriving DecidableEq, Repr

/-- `isReputationSignalKind`. -/
def ReputationSignalKind.ofName : String → Option ReputationSignalKind
  | "service_rating" => some .serviceRating
  | "completion" => some .completion
  | "cancellation" => some .cancellation
  | "dispute" => some .dispute
  | "compliment" => some .compliment
  | "complaint" => some .complaint
  | _ => none

def ReputationSignalKind.name : ReputationSignalKind → String
  | .serviceRating => "service_rating"
  | .completion => "completion"
  | .cancellation => "cancellation"
  | .dispute => "dispute"
  | .compliment => "compliment"
  | .complaint => "complaint"

/-- `REPUTATION_SIGNAL_KINDS`, in the order a standing lists them. -/
def reputationSignalKinds : List ReputationSignalKind :=
  [.serviceRating, .completion, .cancellation, .dispute, .compliment, .complaint]

def ratedKind : ReputationSignalKind := .serviceRating

def minRating : Int := 1

def maxRating : Int := 5

/-- One recorded signal. -/
structure ReputationSignal where
  reputationSignalId : String
  organizationId : String
  subjectType : ReputationSubjectType
  subjectId : String
  signalKind : ReputationSignalKind
  ratingValue : Option Int
  sourceSystem : String
  sourceReference : String
  occurredAt : Int
  recordedAt : Int
  correlationId : String
  retractedAt : Option Int
  retractionReason : Option String
  deriving DecidableEq, Repr

structure ReputationSubject where
  organizationId : String
  subjectType : ReputationSubjectType
  subjectId : String
  deriving DecidableEq, Repr

/-- What a producer's report is recorded under, once. -/
structure SignalSource where
  organizationId : String
  sourceSystem : String
  sourceReference : String
  deriving DecidableEq, Repr

def ReputationSignal.source (signal : ReputationSignal) : SignalSource :=
  ⟨signal.organizationId, signal.sourceSystem, signal.sourceReference⟩

def ReputationSignal.subject (signal : ReputationSignal) : ReputationSubject :=
  ⟨signal.organizationId, signal.subjectType, signal.subjectId⟩

/-- A rating is a number from one to five, and nothing else carries a number. -/
def ratingShapeIsValid (kind : ReputationSignalKind) (value : Option Int) : Bool :=
  if kind = ratedKind then value.any (fun rating => minRating ≤ rating && rating ≤ maxRating)
  else value.isNone

/-! ### Standings -/

/-- One kind's part of a standing. -/
structure ReputationKindGroup where
  signalKind : ReputationSignalKind
  standingCount : Nat
  retractedCount : Nat
  ratingCount : Nat
  ratingSum : Int
  firstRecordedAt : Int
  lastRecordedAt : Int
  deriving DecidableEq, Repr

/-- The group of a kind before its first signal is counted. -/
def ReputationKindGroup.opened (signal : ReputationSignal) : ReputationKindGroup :=
  ⟨signal.signalKind, 0, 0, 0, 0, signal.recordedAt, signal.recordedAt⟩

/-- One more signal of the kind. -/
def ReputationKindGroup.count (group : ReputationKindGroup) (signal : ReputationSignal) :
    ReputationKindGroup :=
  let bounded : ReputationKindGroup :=
    { group with
      firstRecordedAt := min signal.recordedAt group.firstRecordedAt
      lastRecordedAt := max signal.recordedAt group.lastRecordedAt }
  if signal.retractedAt.isSome then { bounded with retractedCount := bounded.retractedCount + 1 }
  else
    match signal.ratingValue with
    | some rating =>
        if signal.signalKind = ratedKind then
          { bounded with
            standingCount := bounded.standingCount + 1
            ratingCount := bounded.ratingCount + 1
            ratingSum := bounded.ratingSum + rating }
        else { bounded with standingCount := bounded.standingCount + 1 }
    | none => { bounded with standingCount := bounded.standingCount + 1 }

/-- The groups by kind, as they are while the signals are read one by one. -/
abbrev Groups := ReputationSignalKind → Option ReputationKindGroup

def Groups.add (groups : Groups) (signal : ReputationSignal) : Groups :=
  fun kind =>
    if kind = signal.signalKind then
      some (((groups kind).getD (.opened signal)).count signal)
    else groups kind

def groupSignals (signals : List ReputationSignal) : List ReputationKindGroup :=
  reputationSignalKinds.filterMap (signals.foldl Groups.add (fun _ => none))

structure ReputationStanding where
  subject : ReputationSubject
  signalCount : Nat
  retractedCount : Nat
  counts : ReputationSignalKind → Nat
  ratingCount : Nat
  ratingSum : Int
  averageRatingMilli : Option Int
  firstSignalAt : Option Int
  lastSignalAt : Option Int

/-- What has been folded of the groups so far. -/
structure StandingFold where
  counts : ReputationSignalKind → Nat
  total : Nat
  retracted : Nat
  ratingCount : Nat
  ratingSum : Int
  first : Option Int
  last : Option Int

def StandingFold.empty : StandingFold := ⟨fun _ => 0, 0, 0, 0, 0, none, none⟩

def StandingFold.add (fold : StandingFold) (group : ReputationKindGroup) : StandingFold where
  counts := fun kind => if kind = group.signalKind then group.standingCount else fold.counts kind
  total := fold.total + (group.standingCount + group.retractedCount)
  retracted := fold.retracted + group.retractedCount
  ratingCount := fold.ratingCount + group.ratingCount
  ratingSum := fold.ratingSum + group.ratingSum
  first := some (fold.first.elim group.firstRecordedAt (min group.firstRecordedAt))
  last := some (fold.last.elim group.lastRecordedAt (max group.lastRecordedAt))

/-- Thousandths of a rating, rounded half up; none where nothing has been rated. -/
def averageMilli (ratingSum : Int) (ratingCount : Nat) : Option Int :=
  if ratingCount = 0 then none
  else some ((2 * (ratingSum * 1000) + ratingCount) / (2 * ratingCount))

def deriveStanding (subject : ReputationSubject) (groups : List ReputationKindGroup) :
    ReputationStanding :=
  let fold := groups.foldl StandingFold.add .empty
  { subject := subject
    signalCount := fold.total
    retractedCount := fold.retracted
    counts := fold.counts
    ratingCount := fold.ratingCount
    ratingSum := fold.ratingSum
    averageRatingMilli := averageMilli fold.ratingSum fold.ratingCount
    firstSignalAt := fold.first
    lastSignalAt := fold.last }

end WaslaCore.Reputation
