import Courier.Proofs.Publishing.Rounds
/-
How the turns of rows end.  What a tick makes of a row that is due depends on the row, on its causes
in the store at its turn, and on what the bus or the handler answers; and it is one of five things.
-/
namespace Courier

variable {κ : Type}

inductive HandOver (κ : Type) where
  | published (routingKey : String) (envelope : RawEnvelope) (answer : Except BusError Unit)
  | handled (command : Envelope κ) (answer : Except MessagingError Unit)

def Call.handOver? : (call : Call κ) → call.Answer → Option (HandOver κ)
  | .publish routingKey envelope, answer => some (.published routingKey envelope answer)
  | .handle command, answer => some (.handled command answer)
  | _, _ => none

inductive Ending where
  /-- A claim that has run out was the last one. -/
  | exhausted
  /-- A cause of the row is still on its way. -/
  | postponed
  | delivered
  /-- The row can never be delivered. -/
  | rejected
  | failed
deriving DecidableEq

/-- What the delivery of an envelope hands over, and what it comes to. -/
inductive Router.Delivers (router : Router κ) (row : Row) (envelope : RawEnvelope) :
    List (HandOver κ) → Except BusError Unit → Prop where
  | outgoing (hdelivery : row.delivery = .outbox) (answer : Except BusError Unit) :
      Delivers router row envelope
        [.published (router.routingKey row.dataType) envelope answer] answer
  | inside {command : Envelope κ} (hdelivery : row.delivery ≠ .outbox)
      (hcommand : router.registry.command envelope = .ok command)
      (answer : Except MessagingError Unit) :
      Delivers router row envelope [.handled command answer] (answer.mapError BusError.ofMessaging)
  | nobody {error : MessagingError} (hdelivery : row.delivery ≠ .outbox)
      (hcommand : router.registry.command envelope = .error error) :
      Delivers router row envelope [] (.error (BusError.ofMessaging error))

/-- What was handed over tells what the delivery came to. -/
theorem Router.Delivers.unique {router : Router κ} {row : Row} {envelope : RawEnvelope}
    {handed : List (HandOver κ)} {result other : Except BusError Unit}
    (h : router.Delivers row envelope handed result)
    (hother : router.Delivers row envelope handed other) : result = other := by
  cases h with
  | outgoing hdelivery answer =>
      cases hother with
      | outgoing => rfl
  | inside hdelivery hcommand answer =>
      cases hother with
      | inside => rfl
  | nobody hdelivery hcommand =>
      cases hother with
      | nobody _ hagain => rw [Except.error.inj (hcommand.symm.trans hagain)]

namespace Publisher

/-- The claim of a row that is due, its causes being judged by the store.  It is made in the row's
place. -/
inductive Claims (publisher : Publisher κ) (now : Instant) (store : Store) (row : Row) : Row → Prop where
  | takenUp (hfree : row.status = .stored ∨ row.status = .failed) (hcause : ¬ Waits row store) :
      Claims publisher now store row
        { row with
          status := .processing
          nextAttemptAt := now.after publisher.settings.claimTimeout
          version := row.version + 1 }
  | takenOver {retries : Count} (hheld : row.status = .processing) (hexpired : row.nextAttemptAt ≤ now)
      (hretries : retries.toNat = row.retries.toNat + 1)
      (hroom : retries < publisher.settings.maxRetries) :
      Claims publisher now store row
        { row with
          retries := retries
          nextAttemptAt := now.after publisher.settings.claimTimeout
          lastError := some (Custodian.expiryReason row)
          version := row.version + 1 }

/-- What becomes of a claimed row, with what is handed over meanwhile. -/
inductive Settles (publisher : Publisher κ) (now : Instant) (claimed : Row) :
    Ending → List (HandOver κ) → Row → Prop where
  | delivered {envelope : RawEnvelope} {handed : List (HandOver κ)}
      (hdecode : publisher.router.decode claimed = .ok envelope)
      (hdelivers : publisher.router.Delivers claimed envelope handed (.ok ())) (clock : Instant) :
      Settles publisher now claimed .delivered handed
        { claimed with
          status := .processed
          lastProcessedAt := some clock
          version := claimed.version + 1 }
  | unreadable {error : MessagingError} (hdecode : publisher.router.decode claimed = .error error)
      (clock : Instant) :
      Settles publisher now claimed .rejected []
        { claimed with
          status := .failed
          deadLettered := true
          lastProcessedAt := some clock
          lastError := some error.message
          version := claimed.version + 1 }
  | rejected {envelope : RawEnvelope} {handed : List (HandOver κ)} {error : BusError}
      (hdecode : publisher.router.decode claimed = .ok envelope)
      (hdelivers : publisher.router.Delivers claimed envelope handed (.error error))
      (hpermanent : error.isRetryable = false) (clock : Instant) :
      Settles publisher now claimed .rejected handed
        { claimed with
          status := .failed
          deadLettered := true
          lastProcessedAt := some clock
          lastError := some error.message
          version := claimed.version + 1 }
  | failed {envelope : RawEnvelope} {handed : List (HandOver κ)} {error : BusError} {retries : Count}
      (hdecode : publisher.router.decode claimed = .ok envelope)
      (hdelivers : publisher.router.Delivers claimed envelope handed (.error error))
      (hretryable : error.isRetryable = true)
      (hretries : retries.toNat = claimed.retries.toNat + 1) (clock : Instant) :
      Settles publisher now claimed .failed handed
        { claimed with
          status := .failed
          retries := retries
          nextAttemptAt := now.after (publisher.settings.backoff.delay retries)
          deadLettered := decide (publisher.settings.maxRetries ≤ retries)
          lastProcessedAt := some clock
          lastError := some error.message
          version := claimed.version + 1 }

/-- What becomes of a row that is due in its turn, its causes being judged by the store. -/
inductive Handles (publisher : Publisher κ) (now : Instant) (store : Store) (row : Row) :
    Ending → List (HandOver κ) → Row → Prop where
  | exhausted {retries : Count} (hheld : row.status = .processing) (hexpired : row.nextAttemptAt ≤ now)
      (hretries : retries.toNat = row.retries.toNat + 1)
      (hceiling : publisher.settings.maxRetries ≤ retries) :
      Handles publisher now store row .exhausted []
        { row with
          status := .failed
          retries := retries
          deadLettered := true
          lastProcessedAt := some now
          lastError := some (Custodian.expiryReason row)
          version := row.version + 1 }
  | postponed {deferrals : Count} (hfree : row.status = .stored ∨ row.status = .failed)
      (hcause : Waits row store) (hdeferrals : deferrals.toNat = row.deferrals.toNat + 1) :
      Handles publisher now store row .postponed []
        { row with
          deferrals := deferrals
          nextAttemptAt := now.after (publisher.settings.backoff.delay deferrals)
          deadLettered := decide (publisher.settings.maxRetries ≤ deferrals)
          lastError := if publisher.settings.maxRetries ≤ deferrals then
              some ("cause unresolved after " ++ toString deferrals.toNat ++ " deferrals")
            else row.lastError
          version := row.version + 1 }
  | claimed {claimed changed : Row} {ending : Ending} {handed : List (HandOver κ)}
      (hclaims : publisher.Claims now store row claimed)
      (hsettles : publisher.Settles now claimed ending handed changed) :
      Handles publisher now store row ending handed changed

section unique

variable {publisher : Publisher κ} {now : Instant} {store : Store} {row claimed other changed last : Row}
  {handed : List (HandOver κ)} {ending another : Ending}

theorem Claims.unique (h : publisher.Claims now store row claimed)
    (hother : publisher.Claims now store row other) : claimed = other := by
  cases h with
  | takenUp hfree hcause =>
      cases hother with
      | takenUp => rfl
      | takenOver hheld => simp [hheld] at hfree
  | takenOver hheld hexpired hretries hroom =>
      cases hother with
      | takenUp hfree => simp [hheld] at hfree
      | takenOver _ _ hagain => rw [UInt32.toNat_inj.1 (hretries.trans hagain.symm)]

/-- The data and the answer tell how a claim is settled. -/
theorem Settles.unique (h : publisher.Settles now claimed ending handed changed)
    (hother : publisher.Settles now claimed another handed last) : ending = another := by
  have hread : ∀ {first second : RawEnvelope} {one two : Except BusError Unit},
      publisher.router.decode claimed = .ok first → publisher.router.decode claimed = .ok second →
      publisher.router.Delivers claimed first handed one →
      publisher.router.Delivers claimed second handed two → one = two := by
    intro first second one two hfirst hsecond hone htwo
    obtain rfl := Except.ok.inj (hfirst.symm.trans hsecond)
    exact hone.unique htwo
  cases h with
  | delivered hdecode hdelivers =>
      cases hother with
      | delivered => rfl
      | unreadable hagain => exact nomatch hdecode.symm.trans hagain
      | rejected hagain hresult => exact nomatch hread hdecode hagain hdelivers hresult
      | failed hagain hresult => exact nomatch hread hdecode hagain hdelivers hresult
  | unreadable hdecode =>
      cases hother with
      | unreadable => rfl
      | rejected => rfl
      | delivered hagain => exact nomatch hdecode.symm.trans hagain
      | failed hagain => exact nomatch hdecode.symm.trans hagain
  | rejected hdecode hdelivers hpermanent =>
      cases hother with
      | unreadable => rfl
      | rejected => rfl
      | delivered hagain hresult => exact nomatch hread hdecode hagain hdelivers hresult
      | failed hagain hresult hretryable =>
          obtain rfl := Except.error.inj (hread hdecode hagain hdelivers hresult)
          exact absurd (hpermanent.symm.trans hretryable) Bool.false_ne_true
  | failed hdecode hdelivers hretryable =>
      cases hother with
      | failed => rfl
      | unreadable hagain => exact nomatch hdecode.symm.trans hagain
      | delivered hagain hresult => exact nomatch hread hdecode hagain hdelivers hresult
      | rejected hagain hresult hpermanent =>
          obtain rfl := Except.error.inj (hread hdecode hagain hdelivers hresult)
          exact absurd (hpermanent.symm.trans hretryable) Bool.false_ne_true

theorem Claims.not_waits (h : publisher.Claims now store row claimed)
    (hfree : row.status = .stored ∨ row.status = .failed) : ¬ Waits row store := by
  cases h with
  | takenUp _ hcause => exact hcause
  | takenOver hheld => simp [hheld] at hfree

/-- A claim that has run out is taken over below the ceiling only. -/
theorem Claims.room (h : publisher.Claims now store row claimed) (hheld : row.status = .processing)
    {retries : Count} (hretries : retries.toNat = row.retries.toNat + 1) :
    ¬ publisher.settings.maxRetries ≤ retries := by
  cases h with
  | takenUp hfree => simp [hheld] at hfree
  | takenOver _ _ hagain hroom =>
      rw [UInt32.toNat_inj.1 (hretries.trans hagain.symm)]
      exact UInt32.not_le.2 hroom

theorem Claims.id_eq (h : publisher.Claims now store row claimed) : claimed.id = row.id := by
  cases h <;> rfl

theorem Settles.id_eq (h : publisher.Settles now claimed ending handed changed) :
    changed.id = claimed.id := by
  cases h <;> rfl

theorem Handles.id_eq (h : publisher.Handles now store row ending handed changed) :
    changed.id = row.id := by
  cases h with
  | exhausted => rfl
  | postponed => rfl
  | claimed hclaims hsettles => exact hsettles.id_eq.trans hclaims.id_eq

/-- No turn ends in two ways. -/
theorem Handles.unique (h : publisher.Handles now store row ending handed changed)
    (hother : publisher.Handles now store row another handed last) : ending = another := by
  cases h with
  | exhausted hheld hexpired hretries hceiling =>
      cases hother with
      | exhausted => rfl
      | postponed hfree => simp [hheld] at hfree
      | claimed hclaims => exact absurd hceiling (hclaims.room hheld hretries)
  | postponed hfree hcause =>
      cases hother with
      | exhausted hheld => simp [hheld] at hfree
      | postponed => rfl
      | claimed hclaims => exact absurd hcause (hclaims.not_waits hfree)
  | claimed hclaims hsettles =>
      cases hother with
      | exhausted hheld hexpired hretries hceiling => exact absurd hceiling (hclaims.room hheld hretries)
      | postponed hfree hcause => exact absurd hcause (hclaims.not_waits hfree)
      | claimed hagain hsettled =>
          obtain rfl := hclaims.unique hagain
          exact hsettles.unique hsettled

end unique

end Publisher

end Courier
