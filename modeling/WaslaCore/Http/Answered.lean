import Mathlib.Tactic.IntervalCases
import WaslaCore.Http.Answering

/-!
Which requests are answered. Past the request line, the path, the limiter and the labels,
nothing a handler, an authenticator or a record store does leaves a request without an
answer. What does is the identifier the caller sent: it is put under every answer last,
and an answer it cannot be sealed under is not sent.
-/

namespace WaslaCore.Http

open Data Platform Identity

/-! ### The parts of a path -/

/-- An element of a list with only elements that are passed by in front of it. -/
inductive Reached {α : Type} (passes : α → Prop) : List α → α → Prop where
  | here {x : α} {rest : List α} : Reached passes (x :: rest) x
  | there {x y : α} {rest : List α} : passes y → Reached passes rest x → Reached passes (y :: rest) x

theorem reached_cons {α : Type} {passes : α → Prop} {x y : α} {rest : List α} :
    Reached passes (y :: rest) x ↔ x = y ∨ passes y ∧ Reached passes rest x := by
  constructor
  · rintro (_ | ⟨hpasses, hreached⟩)
    · exact .inl rfl
    · exact .inr ⟨hpasses, hreached⟩
  · rintro (rfl | ⟨hpasses, hreached⟩)
    · exact .here
    · exact .there hpasses hreached

def isParameter (segment : String) : Bool := segment.toList.head? = some ':'

/-- A parameter fits any part, and a literal only its own. -/
def fitsPart (pair : String × String) : Bool := isParameter pair.1 || pair.1 = pair.2

/-- A route with the method of a request and as many segments as its path. -/
def Route.alike {A S : Type} (route : Route A S) (method : String) (parts : List String) : Bool :=
  route.method = method && (segmentsOf route.template).length = parts.length

def Route.fits {A S : Type} (route : Route A S) (method : String) (parts : List String) : Bool :=
  route.alike method parts && ((segmentsOf route.template).zip parts).all fitsPart

/-- Every part that is reached under a parameter decodes. -/
def SegmentsDecode (pairs : List (String × String)) : Prop :=
  ∀ pair, Reached (fun pair => fitsPart pair = true) pairs pair → isParameter pair.1 = true →
    ∃ value, decodeURIComponent pair.2 = some value

/-- So it is for every route that is tried: those before the first that fits, and it. -/
def PathDecodes {A S : Type} (routes : List (Route A S)) (method : String) (parts : List String) :
    Prop :=
  ∀ route, Reached (fun route => route.fits method parts = false) routes route →
    route.alike method parts = true → SegmentsDecode ((segmentsOf route.template).zip parts)

/-- The template a request is labelled with: that of the first route that fits. -/
def firstTemplate {A S : Type} (routes : List (Route A S)) (method : String) (parts : List String) :
    Option String :=
  (routes.find? (fun route => route.fits method parts)).map (fun route => route.template)

theorem segmentsDecode_cons {pair : String × String} {rest : List (String × String)} :
    SegmentsDecode (pair :: rest) ↔
      (isParameter pair.1 = true → ∃ value, decodeURIComponent pair.2 = some value) ∧
        (fitsPart pair = true → SegmentsDecode rest) := by
  constructor
  · intro h
    exact ⟨h pair .here, fun hfits next hnext => h next (.there hfits hnext)⟩
  · rintro ⟨hfirst, hrest⟩ next hnext
    rcases reached_cons.mp hnext with rfl | ⟨hfits, hreached⟩
    · exact hfirst
    · exact hrest hfits next hreached

theorem isParameter_iff {segment : String} :
    isParameter segment = true ↔ ∃ name, segment.toList = ':' :: name := by
  unfold isParameter
  cases hsegment : segment.toList with
  | nil => simp
  | cons first rest =>
      constructor
      · intro h
        have hfirst : first = ':' := by simpa using h
        exact ⟨rest, by rw [hfirst]⟩
      · rintro ⟨name, hname⟩
        rw [(List.cons.inj hname).1]
        rfl

/-- One attempt at a route ends without an error exactly where every part it reaches
decodes, and then with its parameters exactly where the route fits. -/
theorem matchSegments_spec (segments parts : List String) (params : List (String × String)) :
    ((∃ found, matchSegments segments parts params = .ok found) ↔
        SegmentsDecode (segments.zip parts)) ∧
      ∀ found, matchSegments segments parts params = .ok found →
        found.isSome = (segments.zip parts).all fitsPart := by
  induction segments generalizing parts params with
  | nil =>
      refine ⟨⟨fun _ pair hpair => ?_, fun _ => ⟨some params, rfl⟩⟩, fun found hfound => ?_⟩
      · cases hpair
      · obtain rfl := Except.ok.inj hfound
        rfl
  | cons segment segments ih =>
      cases parts with
      | nil =>
          refine ⟨⟨fun _ pair hpair => ?_, fun _ => ⟨some params, rfl⟩⟩, fun found hfound => ?_⟩
          · cases hpair
          · obtain rfl := Except.ok.inj hfound
            rfl
      | cons part parts =>
          rw [List.zip_cons_cons, segmentsDecode_cons, List.all_cons]
          unfold matchSegments
          split
          · rename_i name hname
            have hparameter : isParameter segment = true := isParameter_iff.mpr ⟨name, hname⟩
            have hfits : fitsPart (segment, part) = true := by simp [fitsPart, hparameter]
            simp only [hparameter, hfits, forall_const, Bool.true_and]
            split
            · rename_i hdecode
              simp [hdecode]
            · rename_i value hdecode
              simpa [hdecode] using ih parts _
          · rename_i hliteral
            have hparameter : isParameter segment = false := by
              rw [Bool.eq_false_iff]
              intro hname
              obtain ⟨name, hname⟩ := isParameter_iff.mp hname
              exact hliteral name hname
            by_cases hsame : segment = part
            · have hfits : fitsPart (segment, part) = true := by simp [fitsPart, hsame]
              have hnext := ih parts params
              rw [if_neg (not_not_intro hsame)]
              simpa only [hparameter, hfits, Bool.false_eq_true, false_implies, true_and,
                forall_const, Bool.true_and] using hnext
            · have hfits : fitsPart (segment, part) = false := by
                simp [fitsPart, hparameter, hsame]
              simp [hparameter, hfits, hsame]

theorem pathDecodes_cons {A S : Type} {route : Route A S} {rest : List (Route A S)}
    {method : String} {parts : List String} :
    PathDecodes (route :: rest) method parts ↔
      (route.alike method parts = true →
        SegmentsDecode ((segmentsOf route.template).zip parts)) ∧
        (route.fits method parts = false → PathDecodes rest method parts) := by
  constructor
  · intro h
    exact ⟨h route .here, fun hmissed next hnext => h next (.there hmissed hnext)⟩
  · rintro ⟨hfirst, hrest⟩ next hnext
    rcases reached_cons.mp hnext with rfl | ⟨hmissed, hreached⟩
    · exact hfirst
    · exact hrest hmissed next hreached

/-- A path is matched exactly where it decodes, and then by the first route that fits. -/
theorem matchRoutes_spec {A S : Type} (routes : List (Route A S)) (method : String)
    (parts : List String) :
    ((∃ matched, matchRoutes method parts routes = .ok matched) ↔
        PathDecodes routes method parts) ∧
      ∀ matched, matchRoutes method parts routes = .ok matched →
        Router.templateOf matched = firstTemplate routes method parts := by
  induction routes with
  | nil =>
      refine ⟨⟨fun _ route hroute => ?_, fun _ => ⟨none, rfl⟩⟩, fun matched hmatched => ?_⟩
      · cases hroute
      · obtain rfl := Except.ok.inj hmatched
        rfl
  | cons route rest ih =>
      rw [pathDecodes_cons]
      unfold matchRoutes
      by_cases hother : route.method ≠ method ∨ (segmentsOf route.template).length ≠ parts.length
      · have halike : route.alike method parts = false := by
          rcases hother with h | h <;> simp [Route.alike, h]
        have hmissed : route.fits method parts = false := by simp [Route.fits, halike]
        rw [if_pos hother]
        simpa [halike, hmissed, firstTemplate] using ih
      · have halike : route.alike method parts = true := by
          simpa [Route.alike, not_or] using hother
        rw [if_neg hother]
        obtain ⟨hdecodes, hfound⟩ := matchSegments_spec (segmentsOf route.template) parts []
        cases hmatch : matchSegments (segmentsOf route.template) parts [] with
        | error rejection =>
            have hstuck : ¬SegmentsDecode ((segmentsOf route.template).zip parts) := by
              rw [← hdecodes, hmatch]
              rintro ⟨found, hok⟩
              cases hok
            simp [halike, hstuck]
        | ok found =>
            have hall := hdecodes.mp ⟨found, hmatch⟩
            have hfits : route.fits method parts = found.isSome := by
              rw [Route.fits, halike, Bool.true_and, hfound found hmatch]
            cases found with
            | none => simpa [halike, hall, hfits, firstTemplate] using ih
            | some params => simp [halike, hall, hfits, firstTemplate, Router.templateOf]

/-! ### The headers the router states itself -/

theorem digits_whole (n : Nat) : ∃ first rest, Nat.toDigits 10 n = first :: rest ∧
    isAsciiDigit first = true ∧ rest.all isAsciiDigit = true ∧
    (first = '0' → n = 0 ∧ rest = []) := by
  induction n using Nat.strongRecOn with
  | ind n ih =>
      have hdigit : ∀ d, d < 10 → isAsciiDigit d.digitChar = true ∧ (d.digitChar = '0' → d = 0) := by
        intro d hd
        interval_cases d <;> decide
      by_cases hsmall : n < 10
      · refine ⟨n.digitChar, [], Nat.toDigits_of_lt_base hsmall, (hdigit n hsmall).1, rfl, ?_⟩
        exact fun hzero => ⟨(hdigit n hsmall).2 hzero, rfl⟩
      · obtain ⟨first, rest, hdigits, hfirst, hrest, hzero⟩ := ih (n / 10) (by omega)
        refine ⟨first, rest ++ [(n % 10).digitChar], ?_, hfirst, ?_, ?_⟩
        · rw [Nat.toDigits_of_base_le (by decide) (by omega), hdigits]
          rfl
        · simp [hrest, (hdigit (n % 10) (by omega)).1]
        · intro hlead
          have hnone := (hzero hlead).1
          omega

theorem isWhole_toString (n : Nat) : isWhole (toString n) = true := by
  obtain ⟨first, rest, hdigits, hfirst, hrest, hzero⟩ := digits_whole n
  have hlist : (toString n).toList = first :: rest := by
    rw [Nat.toString_eq_ofList_toDigits, String.toList_ofList, hdigits]
  unfold isWhole
  rw [hlist]
  by_cases hlead : first = '0'
  · obtain ⟨-, rfl⟩ := hzero hlead
    subst hlead
    rfl
  · split
    · rename_i h
      cases h
    · rfl
    · rename_i h
      obtain ⟨rfl, rfl⟩ := List.cons.inj h
      simp [hfirst, hrest, hlead]

theorem isPositiveWhole_toString {n : Nat} (h : 1 ≤ n) : isPositiveWhole (toString n) = true := by
  have hzero : toString n ≠ "0" := by
    intro hsame
    obtain ⟨first, rest, hdigits, -, -, hnone⟩ := digits_whole n
    have hlist : (toString n).toList = first :: rest := by
      rw [Nat.toString_eq_ofList_toDigits, String.toList_ofList, hdigits]
    rw [hsame] at hlist
    have hlead : '0' = first := (List.cons.inj hlist).1
    have := (hnone hlead.symm).1
    omega
  unfold isPositiveWhole
  rw [isWhole_toString, Bool.true_and]
  exact decide_eq_true hzero

theorem Declared.nil : Declared [] := by
  simp [Declared]

theorem Declared.append {entries rest : Headers} (h : Declared entries) (hrest : Declared rest) :
    Declared (entries ++ rest) := by
  intro entry hentry
  rcases List.mem_append.mp hentry with hentry | hentry
  · exact h entry hentry
  · exact hrest entry hentry

theorem Declared.single {name value : String} {shape : String → Bool}
    (hname : findEntry (toLowerCase name) responseHeaders = some shape)
    (hvalue : shape value = true) : Declared [(name, value)] := by
  intro entry hentry
  obtain rfl := List.mem_singleton.mp hentry
  exact ⟨shape, hname, hvalue⟩

theorem declared_whole {name : String} (n : Nat)
    (hname : findEntry (toLowerCase name) responseHeaders = some isWhole) :
    Declared [(name, toString n)] :=
  .single hname (isWhole_toString n)

/-- What is said of a budget is declared. -/
theorem RateLimitDecision.headers_declared (decision : RateLimitDecision) :
    Declared decision.headers := by
  cases decision with
  | allowed limit remaining resetAt =>
      exact (declared_whole limit rfl).append
        ((declared_whole remaining rfl).append (declared_whole (ceilSeconds resetAt) rfl))
  | refused limit retryAfterMs resetAt =>
      exact (declared_whole limit rfl).append
        ((declared_whole 0 rfl).append (declared_whole (ceilSeconds resetAt) rfl))

/-- So is the time a refusal states. -/
theorem CoreRefusal.headers_declared (error : CoreRefusal) : Declared error.headers := by
  unfold CoreRefusal.headers
  split
  · exact .nil
  · rename_i seconds hseconds
    exact .single rfl (isPositiveWhole_toString (error.stated seconds hseconds))

theorem replayed_declared : Declared [("idempotent-replay", "true")] :=
  .single rfl rfl

/-! ### Sealing and recording -/

theorem sealAnswer_ok {parts : List Headers} {correlationId : String}
    (hparts : Declared parts.flatten) (h : isSealable correlationId = true) :
    ∃ headers, Router.sealAnswer parts correlationId = .ok headers := by
  have hall : Declared (parts ++ [[("x-correlation-id", correlationId)]]).flatten := by
    rw [List.flatten_append]
    exact hparts.append (.single rfl h)
  obtain ⟨headers, hsealed⟩ := @sealEntries_declared _ [] hall
  refine ⟨headers, ?_⟩
  unfold Router.sealAnswer sealHeaders
  rw [hsealed]

/-- A sealed answer carries its identifier, in the shape it is sealed in. -/
theorem sealAnswer_carries {parts : List Headers} {correlationId : String} {headers : Headers}
    (h : Router.sealAnswer parts correlationId = .ok headers) :
    findEntry "x-correlation-id" headers = some correlationId ∧
      isSealable correlationId = true := by
  unfold Router.sealAnswer at h
  split at h
  · rename_i hsealed
    obtain rfl := Except.ok.inj h
    refine ⟨sealed_correlation hsealed, ?_⟩
    obtain ⟨shape, hshape, hvalue⟩ := declared_of_sealEntries hsealed
      ("x-correlation-id", correlationId) (by simp)
    have hname : findEntry (toLowerCase "x-correlation-id") responseHeaders = some isSealable := rfl
    rw [hname] at hshape
    obtain rfl := Option.some.inj hshape
    exact hvalue
  · cases h

/-- The labels of a request are admitted, where metrics are kept. -/
def Router.Labelled {A S : Type} (router : Router A S) (label method : String) : Prop :=
  router.metrics = true → isLabelValue label = true ∧ isLabelValue (toLowerCase method) = true

section Answers

variable {A S : Type} {router : Router A S}

theorem labelled_of_record {label method : String} {status : Nat}
    (h : router.record label method status = .ok ()) : router.Labelled label method := by
  intro hmetrics
  unfold Router.record at h
  rw [if_pos hmetrics] at h
  split at h
  · rename_i hadmitted
    simp only [Bool.and_eq_true] at hadmitted
    exact hadmitted.1
  · cases h

theorem record_ok {label method : String} {status : Nat} (hstatus : isLabelValue (toString status))
    (h : router.Labelled label method) : router.record label method status = .ok () := by
  unfold Router.record
  split
  · rename_i hmetrics
    rw [hstatus, (h hmetrics).1, (h hmetrics).2]
    rfl
  · rfl

theorem status_labelled (code : ErrorCode) : isLabelValue (toString (statusForCode code)) = true := by
  cases code <;> decide +kernel

theorem success_labelled {status : Nat} (hlow : 200 ≤ status) (hhigh : status < 300) :
    isLabelValue (toString status) = true := by
  have hall : ∀ k < 100, isLabelValue (toString (200 + k)) = true := by decide +kernel
  have hstatus := hall (status - 200) (by omega)
  rwa [Nat.add_sub_cancel' hlow] at hstatus

/-- One answer, under the correlation identifier. -/
def Answers (outcome : Except Rejection Sent) (correlationId : String) : Prop :=
  ∃ sent, outcome = .ok sent ∧ findEntry "x-correlation-id" sent.headers = some correlationId

/-- What an answer the router states itself takes. -/
def Router.States (router : Router A S) (known : Router.Known) : Prop :=
  router.Labelled known.label known.method ∧ isSealable known.correlationId = true

/-- Recorded and sealed: the answer is sent exactly where both go through. -/
theorem stated_iff {known : Router.Known} {status : Nat} {parts : List Headers} {body : SentBody}
    (hstatus : isLabelValue (toString status)) (hparts : Declared parts.flatten) :
    Answers (do
        router.record known.label known.method status
        let headers ← Router.sealAnswer parts known.correlationId
        pure ⟨status, body, headers⟩) known.correlationId ↔ router.States known := by
  constructor
  · rintro ⟨sent, hsent, -⟩
    cases hrecord : router.record known.label known.method status with
    | error rejection =>
        rw [hrecord] at hsent
        cases hsent
    | ok done =>
        cases hseal : Router.sealAnswer parts known.correlationId with
        | error rejection =>
            rw [hrecord, hseal] at hsent
            cases hsent
        | ok headers => exact ⟨labelled_of_record hrecord, (sealAnswer_carries hseal).2⟩
  · rintro ⟨hlabels, hid⟩
    obtain ⟨headers, hseal⟩ := sealAnswer_ok hparts hid
    refine ⟨⟨status, body, headers⟩, ?_, (sealAnswer_carries hseal).1⟩
    rw [record_ok hstatus hlabels, hseal]
    rfl

/-- Any refusal is answered where the labels are admitted and the identifier can be
sealed. -/
theorem refuse_answers {known : Router.Known} (error : CoreRefusal)
    (hrate : Declared known.rateHeaders) :
    Answers (router.refuse known error) known.correlationId ↔ router.States known := by
  apply stated_iff (status_labelled _)
  rw [List.flatten_cons, List.flatten_cons]
  exact hrate.append (error.headers_declared.append .nil)

/-- The labels of a limited request's class and subject are always admitted, so it is
refused like any other. -/
theorem limited_eq (rateClass : RateClass) (kind : SubjectKind) (known : Router.Known)
    (error : CoreRefusal) :
    router.limited rateClass kind known error = router.refuse known error := by
  have hadmitted : (isLabelValue rateClass.text && isLabelValue kind.text) = true := by
    cases rateClass <;> cases kind <;> decide +kernel
  unfold Router.limited Router.refuse
  rw [hadmitted, Bool.not_true, Bool.and_false]
  rfl

theorem replay_answers {known : Router.Known} {answer : Answer} (hrate : Declared known.rateHeaders)
    (hsuccess : answer.succeeded = true) :
    Answers (router.replay known answer) known.correlationId ↔ router.States known := by
  simp only [Answer.succeeded, Bool.and_eq_true, decide_eq_true_eq] at hsuccess
  apply stated_iff (success_labelled hsuccess.1 hsuccess.2)
  rw [List.flatten_cons, List.flatten_cons]
  exact hrate.append (replayed_declared.append .nil)

theorem unrouted_answers {known : Router.Known} (pathname : String)
    (hrate : Declared known.rateHeaders) :
    Answers (router.unrouted known pathname) known.correlationId ↔ router.States known := by
  have hparts : Declared [known.rateHeaders].flatten := by
    rw [List.flatten_cons]
    exact hrate.append .nil
  constructor
  · rintro ⟨sent, hsent, -⟩
    unfold Router.unrouted at hsent
    cases hseal : Router.sealAnswer [known.rateHeaders] known.correlationId with
    | error rejection =>
        rw [hseal] at hsent
        cases hsent
    | ok headers =>
        cases hrecord : router.record known.label known.method 404 with
        | error rejection =>
            rw [hseal, hrecord] at hsent
            cases hsent
        | ok done => exact ⟨labelled_of_record hrecord, (sealAnswer_carries hseal).2⟩
  · rintro ⟨hlabels, hid⟩
    obtain ⟨headers, hseal⟩ := sealAnswer_ok hparts hid
    have hlabel : isLabelValue (toString 404) = true := status_labelled .notFound
    have hsent : ∃ body, router.unrouted known pathname = .ok ⟨404, body, headers⟩ := by
      unfold Router.unrouted
      rw [hseal, record_ok hlabel hlabels]
      exact ⟨_, rfl⟩
    obtain ⟨body, hbody⟩ := hsent
    exact ⟨⟨404, body, headers⟩, hbody, (sealAnswer_carries hseal).1⟩

/-- Whatever the handler does, and whether or not its claim can be settled, the request is
answered. -/
theorem run_answers {route : Route A S} {known : Router.Known}
    {claim : Option (RetryLookup × String)} {context : RequestContext A S}
    (hrate : Declared known.rateHeaders) :
    Answers (router.run route known claim context) known.correlationId ↔ router.States known := by
  unfold Router.run
  split
  · rename_i sent hsent
    unfold Router.attempt at hsent
    split at hsent
    · cases hsent
    split at hsent
    · cases hsent
    split at hsent
    · cases hsent
    rename_i hrecord
    split at hsent
    · cases hsent
    rename_i headers hseal
    obtain rfl := Except.ok.inj hsent
    obtain ⟨hcarries, hid⟩ := sealAnswer_carries hseal
    exact ⟨fun _ => ⟨labelled_of_record hrecord, hid⟩, fun _ => ⟨_, rfl, hcarries⟩⟩
  · exact refuse_answers _ hrate

theorem serve_answers {route : Route A S} {params : List (String × String)} {known : Router.Known}
    {url : Url} {headers : RequestHeaders} {input : Input} (hrate : Declared known.rateHeaders) :
    Answers (router.serve route params known url headers input) known.correlationId ↔
      router.States known := by
  unfold Router.serve
  split
  · exact refuse_answers _ hrate
  rename_i principal selection parsed hprepared
  cases hstanding : router.standing route input.method headers parsed with
  | refused error => exact refuse_answers error hrate
  | replayed answer =>
      apply replay_answers hrate
      unfold Router.standing at hstanding
      split at hstanding
      · split at hstanding
        · cases hstanding
        · dsimp only at hstanding
          split at hstanding
          · cases hstanding
          · cases hstanding
          · rename_i hclaim
            obtain rfl := Router.Standing.replayed.inj hstanding
            exact router.recorded _ _ _ _ hclaim
          · cases hstanding
          · cases hstanding
      · cases hstanding
  | unclaimed => exact run_answers hrate
  | claimed lookup token => exact run_answers hrate

theorem dispatch_answers {matched : Option (Route A S × List (String × String))}
    {known : Router.Known} {url : Url} {headers : RequestHeaders} {input : Input}
    (hrate : Declared known.rateHeaders) :
    Answers (router.dispatch matched known url headers input) known.correlationId ↔
      router.States known := by
  cases matched with
  | none => exact unrouted_answers url.pathname hrate
  | some found => exact serve_answers hrate

/-! ### Every request -/

/-- The identifier an answer is given under. -/
def Router.correlationOf (router : Router A S) (input : Input) : String :=
  match parseHeaders input.headers with
  | .error _ => router.newId
  | .ok headers => (headers.value "x-correlation-id").getD router.newId

/-- The limiter, where the request is one it is asked about, decides. -/
def Router.Decides (router : Router A S) (headers : RequestHeaders)
    (rateClass : Option RateClass) : Prop :=
  ∀ check limited, router.limiter = some check → rateClass = some limited →
    ∃ decision, check (subjectFor router.sha256 headers) limited = .ok decision

/-- What a request has to be like to be answered. -/
def Router.Answerable (router : Router A S) (input : Input) : Prop :=
  ∃ url, router.parseUrl input.url = some url ∧
    match parseHeaders input.headers with
    | .error _ => router.Labelled "unmatched" input.method
    | .ok headers =>
        let parts := segmentsOf url.pathname
        let template := firstTemplate router.routes input.method parts
        (∀ correlationId, headers.value "x-correlation-id" = some correlationId →
            startsPlain correlationId = true) ∧
          PathDecodes router.routes input.method parts ∧
          router.Labelled (template.getD "unmatched") input.method ∧
          router.Decides headers (rateClassFor input.method template)

theorem routeLabel_eq (matched : Option (Route A S × List (String × String))) :
    routeLabel matched = (Router.templateOf matched).getD "unmatched" := by
  cases matched <;> rfl

/-- The identifier of an accepted request can be sealed exactly where what its caller sent
starts with a letter or a digit. -/
theorem correlation_sealable {raw : RawHeaders} {headers : RequestHeaders}
    (h : parseHeaders raw = .ok headers) :
    isSealable ((headers.value "x-correlation-id").getD router.newId) = true ↔
      ∀ correlationId, headers.value "x-correlation-id" = some correlationId →
        startsPlain correlationId = true := by
  cases hsent : headers.value "x-correlation-id" with
  | none => simp [isSealable_of_isId router.issued]
  | some correlationId =>
      obtain ⟨hmatches, hshort⟩ := parseHeaders_correlation h hsent
      simp [isSealable_iff hmatches hshort]

theorem limit_decides {headers : RequestHeaders} {rateClass : Option RateClass} :
    (∃ decision, router.limit headers rateClass = .ok decision) ↔
      router.Decides headers rateClass := by
  unfold Router.limit Router.Decides
  cases router.limiter with
  | none => simp
  | some check =>
      cases rateClass with
      | none => simp
      | some limited =>
          cases hcheck : check (subjectFor router.sha256 headers) limited <;> simp [hcheck]

/-- A request whose headers are accepted. -/
theorem accept_answers_iff {url : Url} {headers : RequestHeaders} {input : Input} :
    Answers (router.accept url headers input)
        ((headers.value "x-correlation-id").getD router.newId) ↔
      isSealable ((headers.value "x-correlation-id").getD router.newId) = true ∧
        ∃ matched, matchRoutes input.method (segmentsOf url.pathname) router.routes = .ok matched ∧
          router.Labelled (routeLabel matched) input.method ∧
          router.Decides headers (rateClassFor input.method (Router.templateOf matched)) := by
  unfold Router.accept
  cases matchRoutes input.method (segmentsOf url.pathname) router.routes with
  | error rejection => simp [Answers]
  | ok matched =>
      simp only [Except.ok.injEq, exists_eq_left']
      rw [← limit_decides]
      cases router.limit headers (rateClassFor input.method (Router.templateOf matched)) with
      | error rejection => simp [Answers]
      | ok decision =>
          simp only [Except.ok.injEq, exists_eq', and_true]
          rw [and_comm]
          cases decision with
          | none => exact dispatch_answers .nil
          | some decision =>
              have hrate := decision.headers_declared
              cases decision with
              | allowed limit remaining resetAt => exact dispatch_answers hrate
              | refused limit retryAfterMs resetAt =>
                  simp only [limited_eq]
                  exact refuse_answers _ hrate

/-- A request is answered, under its correlation identifier, exactly where its request
line and its path can be read, its labels are admitted, the limiter decides and the
identifier its caller sent starts with a letter or a digit. -/
theorem handle_answers_iff (router : Router A S) (input : Input) :
    Answers (router.handle input) (router.correlationOf input) ↔ router.Answerable input := by
  unfold Router.handle Router.Answerable Router.correlationOf
  cases router.parseUrl input.url with
  | none => simp [Answers]
  | some url =>
      simp only [Option.some.injEq, exists_eq_left']
      cases hheaders : parseHeaders input.headers with
      | error refusal =>
          have hsealable : isSealable router.newId = true := isSealable_of_isId router.issued
          have hrate : Declared
              (⟨"unmatched", input.method, router.newId, []⟩ : Router.Known).rateHeaders := .nil
          exact Iff.trans (refuse_answers (.plain refusal) hrate) (and_iff_left hsealable)
      | ok headers =>
          obtain ⟨hdecodes, htemplate⟩ :=
            matchRoutes_spec router.routes input.method (segmentsOf url.pathname)
          dsimp only
          rw [accept_answers_iff, correlation_sealable hheaders, ← hdecodes]
          refine and_congr_right fun _ => ?_
          constructor
          · rintro ⟨matched, hmatched, hlabels, hlimit⟩
            rw [routeLabel_eq, htemplate matched hmatched] at hlabels
            rw [htemplate matched hmatched] at hlimit
            exact ⟨⟨matched, hmatched⟩, hlabels, hlimit⟩
          · rintro ⟨⟨matched, hmatched⟩, hlabels, hlimit⟩
            rw [← htemplate matched hmatched] at hlabels hlimit
            rw [← routeLabel_eq] at hlabels
            exact ⟨matched, hmatched, hlabels, hlimit⟩

end Answers

/-! ### An identifier that is accepted and not sealed -/

def health : Route Unit Unit where
  method := "GET"
  template := "/health"
  selection := fun _ => .ok ()
  body := fun _ => .ok .null
  required := false
  keyed := false
  handler := fun _ => .ok ⟨200, .value (.object [("status", .text "ok")]), []⟩

def healthRouter : Router Unit Unit where
  routes := [health]
  parseUrl := fun url => some ⟨url, ""⟩
  sha256 := fun text => text
  newId := "5f3b0a52-7d3e-4c59-9c3a-0d6c1b7f2e11"
  issued := by decide
  metrics := true
  limiter := none
  authenticate := fun _ => .ok ()
  claim := fun _ _ => .ok .reused
  recorded := by
    intro lookup fingerprint row answer h
    cases Except.ok.inj h
  complete := fun _ _ _ => .ok true
  release := fun _ _ => .ok true

/-- A dash, and then a letter: accepted on the way in. -/
def dashed : Input where
  method := "GET"
  url := "/health"
  body := none
  headers := fun name => if name = "x-correlation-id" then some (.single "-a") else none

/-- The handler of a request with such an identifier has run, and the request is not
answered. -/
theorem handle_unanswered :
    ¬∀ (router : Router Unit Unit) (input : Input),
      Answers (router.handle input) (router.correlationOf input) := by
  intro h
  obtain ⟨sent, hsent, -⟩ := h healthRouter dashed
  have hrejected : (healthRouter.handle dashed).isOk = false := by decide +kernel
  rw [hsent] at hrejected
  cases hrejected

end WaslaCore.Http
