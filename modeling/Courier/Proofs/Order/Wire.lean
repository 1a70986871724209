import Courier.Order.Messages
import Courier.Proofs.Time.Text
/-
Orders in their stored form.  The number of an order is found again in its document, in the key of
its document and in every message that names it; documents lose nothing of an order but its version
and what it has raised.
-/
namespace Courier

theorem Json.uint64?_ofNat (n : UInt64) : (Json.ofNat n.toNat).uint64? = some n := by
  have hlt : n.toNat < 18446744073709551616 := n.toNat_lt
  have hrange : 0 ≤ (n.toNat : Int) ∧ (n.toNat : Int) ≤ 18446744073709551615 := by omega
  have hnatural : (Json.ofNat n.toNat).natural? 18446744073709551615 = some n.toNat :=
    (if_pos hrange).trans (congrArg some (Int.toNat_natCast n.toNat))
  rw [uint64?, hnatural, Option.map_some, UInt64.ofNat_toNat]

theorem Json.int64?_toInt (n : Int64) : (Json.int n.toInt).int64? = some n := by
  have hrange : -9223372036854775808 ≤ n.toInt ∧ n.toInt ≤ 9223372036854775807 :=
    ⟨n.le_toInt, Int.le_of_lt_add_one n.toInt_lt⟩
  have hinteger : (Json.int n.toInt).integer? = some n.toInt := if_pos hrange
  rw [int64?, hinteger, Option.map_some, Int64.ofInt_toInt]

namespace OrderId

theorem ofJson?_toJson (id : OrderId) : ofJson? id.toJson = some id := by
  rw [ofJson?, toJson, Json.uint64?_ofNat, Option.map_some]

/-- The keys of two orders differ. -/
theorem text_inj {one two : OrderId} : one.text = two.text ↔ one = two := by
  constructor
  · intro h
    have hdigits : Nat.toDigits 10 one.value.toNat = Nat.toDigits 10 two.value.toNat :=
      String.ofList_injective h
    have hvalue : one.value.toNat = two.value.toNat := by
      rw [← (spells_toDigits one.value.toNat).value, hdigits, (spells_toDigits two.value.toNat).value]
    obtain ⟨one⟩ := one
    obtain ⟨two⟩ := two
    exact congrArg OrderId.mk (UInt64.toNat_inj.1 hvalue)
  · rintro rfl
    rfl

end OrderId

theorem OrderState.ofJson?_toJson (state : OrderState) : ofJson? state.toJson = some state := by
  cases state <;> rfl

theorem OrderPlaced.ofJson?_toJson (event : OrderPlaced) : ofJson? event.toJson = some event := by
  obtain ⟨orderId, customer, totalCents⟩ := event
  have hfields : (toJson ⟨orderId, customer, totalCents⟩).record?
      ["order_id", "customer", "total_cents"] 3 =
        some [some orderId.toJson, some (.str customer), some (.int totalCents.toInt)] := rfl
  simp only [ofJson?, hfields, neededField?, OrderId.ofJson?_toJson, Json.string?,
    Json.int64?_toInt, Option.bind_some, Option.bind_eq_bind]
  rfl

theorem OrderCancelled.ofJson?_toJson (event : OrderCancelled) :
    ofJson? event.toJson = some event := by
  obtain ⟨orderId, reason⟩ := event
  have hfields : (toJson ⟨orderId, reason⟩).record? ["order_id", "reason"] 2 =
      some [some orderId.toJson, some (.str reason)] := rfl
  simp only [ofJson?, hfields, neededField?, OrderId.ofJson?_toJson, Json.string?,
    Option.bind_some, Option.bind_eq_bind]
  rfl

/-- What an update leaves out is read as left open. -/
theorem SummaryUpdate.ofJson?_toJson (update : SummaryUpdate) : ofJson? update.toJson = some update := by
  obtain ⟨orderId, state, customer, totalCents⟩ := update
  have hcustomer : optionalField? Json.string? (customer.map Json.str) = some customer := by
    cases customer <;> rfl
  have htotal : optionalField? Json.int64? (totalCents.map fun cents => Json.int cents.toInt) =
      some totalCents := by
    cases totalCents with
    | none => rfl
    | some cents => exact congrArg (Option.map some) (Json.int64?_toInt cents)
  have hfields : (toJson ⟨orderId, state, customer, totalCents⟩).record?
      ["order_id", "state", "customer", "total_cents"] 2 =
        some [some orderId.toJson, some state.toJson, customer.map Json.str,
          totalCents.map fun cents => Json.int cents.toInt] := by
    cases customer <;> cases totalCents <;> rfl
  simp only [ofJson?, hfields, neededField?, OrderId.ofJson?_toJson, OrderState.ofJson?_toJson,
    hcustomer, htotal, Option.bind_some, Option.bind_eq_bind]
  rfl

/-- The document of an order holds all of it but its version and what it has raised. -/
theorem Order.ofJson?_toJson (order : Order) :
    ofJson? order.toJson = some { order with version := 0, events := EventRecorder.empty } := by
  have hreason : optionalField? Json.string? (some (.ofText? order.cancelReason)) =
      some order.cancelReason := by
    cases order.cancelReason with
    | none => rfl
    | some reason => rfl
  have hfields : order.toJson.record? fieldNames 5 =
      some [some order.id.toJson, some (.str order.customer), some (.int order.totalCents.toInt),
        some order.state.toJson, some (.str order.placedAt.text),
        some (.ofText? order.cancelReason)] := rfl
  simp only [ofJson?, hfields, neededField?, OrderId.ofJson?_toJson, Json.string?,
    Json.int64?_toInt, OrderState.ofJson?_toJson, Option.bind_some, order.placedAt.read?_text,
    hreason, Option.bind_eq_bind]
  rfl

/-- What is read of a document has raised nothing. -/
theorem Order.raised_nothing {value : Json} {order : Order} (h : ofJson? value = some order) :
    order.events = EventRecorder.empty := by
  unfold ofJson? at h
  split at h
  · simp only [Option.bind_eq_bind, Option.bind_eq_some_iff, Option.pure_def, Option.some.injEq] at h
    obtain ⟨_, _, _, _, _, _, _, _, _, _, _, _, rfl⟩ := h
    rfl
  · cases h

end Courier
