import NyanShopBot.Orders.Readback
import NyanShopBot.Py.JsonRoundTrip

/-!
# The codec of the purchase payload

A payload is its stored JSON (`fromMapping_loads`, `asDict_fromMapping`), so its canonical
text is the payload (`canonicalJson_injective`), and comparing two orders by their canonical
requests compares their payloads, whatever the digest does.
-/

namespace NyanShopBot.Orders

open Py

/-! ## Writing -/

theorem not_surrogate_of_isCurrency {s : Str} (h : isCurrency s = true) :
    s.any isSurrogate = false := by
  rw [isCurrency, Bool.and_eq_true] at h
  rw [List.any_eq_false]
  intro c hc
  have hletter := List.all_eq_true.1 h.2 c hc
  simp only [Bool.and_eq_true, decide_eq_true_eq] at hletter
  simp only [isSurrogate, Bool.and_eq_true, decide_eq_true_eq]
  omega

theorem isInteger_iff {n low high : Int} : isInteger n low high = true ↔ low ≤ n ∧ n ≤ high := by
  rw [isInteger, Bool.and_eq_true, decide_eq_true_eq, decide_eq_true_eq]

/-- A number of the database has at most 19 digits. -/
theorem writable_int {n : Int} (h : isInteger n 0 maxDatabaseInteger = true) :
    Json.Writable (.int n) := by
  obtain ⟨hlow, hhigh⟩ := isInteger_iff.1 h
  have hmax : maxDatabaseInteger = 9223372036854775807 := rfl
  refine .int n (Nat.le_trans ?_ (by decide : 19 ≤ Json.maxDigits))
  rw [natStr, List.length_map]
  refine (Nat.length_toDigits_le_iff (by decide) (by decide)).2 ?_
  have : n.natAbs < 10000000000000000000 := by omega
  simpa using this

theorem MinorMoney.writable (m : MinorMoney) : m.asDict.Writable := by
  have h := m.valid
  simp only [Bool.and_eq_true, decide_eq_true_eq] at h
  obtain ⟨⟨hamount, hcurrency⟩, hunit⟩ := h
  refine .obj _ ?_ ?_
  · simp only [List.forall_mem_cons]
    exact ⟨by decide +kernel, by decide +kernel, by decide +kernel, by simp⟩
  · simp only [List.forall_mem_cons]
    refine ⟨writable_int hamount, .str _ (not_surrogate_of_isCurrency hcurrency), .str _ ?_,
      by simp⟩
    rw [hunit]
    decide +kernel

/-- What equals one in Python. -/
theorem isOne_cases {j : Json} (h : j.isOne = true) :
    j = .int 1 ∨ j = .bool true ∨ j = .float (.finite 1) := by
  cases j with
  | int n => exact .inl (congrArg Json.int (of_decide_eq_true h))
  | bool b => exact .inr (.inl (congrArg Json.bool h))
  | float x =>
    cases x with
    | finite q => exact .inr (.inr (congrArg (Json.float ∘ PyFloat.finite) (of_decide_eq_true h)))
    | inf => cases h
    | negInf => cases h
    | nan => cases h
  | null => cases h
  | str s => cases h
  | arr items => cases h
  | obj members => cases h

/-! ## Reading -/

theorem asStr_ok {j : Json} {s : Str} (h : asStr j = .ok s) : j = .str s := by
  cases j <;> cases h
  rfl

theorem asInt_ok {j : Json} {n : Int} (h : asInt j = .ok n) : j = .int n := by
  cases j <;> cases h
  rfl

/-- An amount that is read has the mapping that it was read from. -/
theorem asDict_moneyFromMapping {j : Json} {m : MinorMoney} (h : moneyFromMapping j = .ok m) :
    Json.Same m.asDict j := by
  cases j with
  | obj raw =>
    by_cases hkeys : Json.hasKeys raw [str "amount_minor", str "currency", str "unit"] = true
    · rw [moneyFromMapping, if_pos hkeys] at h
      obtain ⟨amount, hamount, h⟩ := except_bind_ok.1 h
      obtain ⟨currency, hcurrency, h⟩ := except_bind_ok.1 h
      obtain ⟨unit, hunit, h⟩ := except_bind_ok.1 h
      obtain ⟨rfl, rfl, rfl⟩ := MinorMoney.make_ok.1 h
      refine Json.same_obj (Json.hasKeys_map_fst _) hkeys ?_
      intro k (hk : k ∈ [str "amount_minor", str "currency", str "unit"])
      simp only [List.mem_cons, List.not_mem_nil, or_false] at hk
      rcases hk with rfl | rfl | rfl
      · rw [asInt_ok hamount]
        exact .refl _
      · rw [asStr_ok hcurrency]
        exact .refl _
      · rw [asStr_ok hunit]
        exact .refl _
    · rw [moneyFromMapping, if_neg hkeys] at h
      cases h
  | _ => cases h

/-- The supplier's part of a payload. -/
theorem same_supplier {raw : List (Str × Json)} {code productId variantId : Str}
    (hkeys : Json.hasKeys raw [str "code", str "product_id", str "variant_id"] = true)
    (hcode : asStr (Json.get raw (str "code")) = .ok code)
    (hproduct : asStr (Json.get raw (str "product_id")) = .ok productId)
    (hvariant : asStr (Json.get raw (str "variant_id")) = .ok variantId) :
    Json.Same (.obj [(str "code", .str code), (str "product_id", .str productId),
      (str "variant_id", .str variantId)]) (.obj raw) := by
  refine Json.same_obj (Json.hasKeys_map_fst _) hkeys ?_
  intro k (hk : k ∈ [str "code", str "product_id", str "variant_id"])
  simp only [List.mem_cons, List.not_mem_nil, or_false] at hk
  rcases hk with rfl | rfl | rfl
  · rw [asStr_ok hcode]
    exact .refl _
  · rw [asStr_ok hproduct]
    exact .refl _
  · rw [asStr_ok hvariant]
    exact .refl _

/-! ## The payload -/

section

variable [UnicodeData]

theorem not_surrogate_of_isIdentity {s : Str} {n : Nat} (h : isIdentity s n = true) :
    s.any isSurrogate = false := by
  simp only [isIdentity, Bool.and_eq_true] at h
  rw [List.any_eq_false]
  intro c hc
  rw [isPrintable_not_surrogate (List.all_eq_true.1 h.1.2 c hc)]
  decide

namespace CanonicalPurchasePayload

theorem writable (p : CanonicalPurchasePayload) : p.asDict.Writable := by
  have h := p.valid
  simp only [Bool.and_eq_true] at h
  obtain ⟨⟨⟨⟨⟨⟨⟨hcustomer, hproduct⟩, hvariant⟩, hquantity⟩, hcode⟩, hsproduct⟩, hsvariant⟩,
    hone⟩ := h
  have hq : isInteger p.quantity 0 maxDatabaseInteger = true := by
    obtain ⟨hlow, hhigh⟩ := isInteger_iff.1 hquantity
    have hmax : maxDatabaseInteger = 9223372036854775807 := rfl
    have hmax' : maxQuantity = 2147483647 := rfl
    exact isInteger_iff.2 ⟨by omega, by omega⟩
  have hversion : p.schemaVersion.Writable := by
    rcases isOne_cases hone with h | h | h <;> rw [h]
    · exact .int 1 (by decide +kernel)
    · exact .bool true
    · exact .float _ Json.readsBack_one
  have hsupplier : Json.Writable (.obj [(str "code", .str p.supplierCode),
      (str "product_id", .str p.supplierProductId),
      (str "variant_id", .str p.supplierVariantId)]) := by
    refine .obj _ ?_ ?_
    · simp only [List.forall_mem_cons]
      exact ⟨by decide +kernel, by decide +kernel, by decide +kernel, by simp⟩
    · simp only [List.forall_mem_cons]
      exact ⟨.str _ (not_surrogate_of_isIdentity hcode),
        .str _ (not_surrogate_of_isIdentity hsproduct),
        .str _ (not_surrogate_of_isIdentity hsvariant), by simp⟩
  refine .obj _ ?_ ?_
  · simp only [List.forall_mem_cons]
    exact ⟨by decide +kernel, by decide +kernel, by decide +kernel, by decide +kernel,
      by decide +kernel, by decide +kernel, by decide +kernel, by decide +kernel, by simp⟩
  · simp only [List.forall_mem_cons]
    exact ⟨.str _ (not_surrogate_of_isIdentity hcustomer), p.maxUnitPrice.writable,
      .str _ (not_surrogate_of_isIdentity hproduct), writable_int hq, hversion, hsupplier,
      p.unitPrice.writable, .str _ (not_surrogate_of_isIdentity hvariant), by simp⟩

/-- The members are written in the order of `as_dict`, sorted or not. -/
theorem ordered_asDict (p : CanonicalPurchasePayload) (sortKeys : Bool) :
    Json.ordered sortKeys p.asDict = p.asDict := by
  have hversion : Json.ordered sortKeys p.schemaVersion = p.schemaVersion := by
    have h := p.valid
    simp only [Bool.and_eq_true] at h
    rcases isOne_cases h.2 with h | h | h <;> rw [h] <;> rfl
  cases sortKeys with
  | false =>
    unfold asDict
    simp only [Json.ordered, Json.orderedMembers, Json.sortMembers, hversion]
    rfl
  | true =>
    unfold asDict
    simp only [Json.ordered, Json.orderedMembers, hversion]
    rfl

/-- **A payload is read back** from the text of its mapping. -/
theorem loads_dumps_asDict {escape : CodePoint → Str} (he : Json.Readable escape) (sortKeys : Bool)
    (p : CanonicalPurchasePayload) :
    Json.loads (Json.dumps escape sortKeys p.asDict) = .ok p.asDict := by
  rw [Json.loads_dumps he p.writable, p.ordered_asDict]

theorem canonicalJson_injective :
    Function.Injective fun p : CanonicalPurchasePayload => p.canonicalJson := by
  intro p q h
  have hp := loads_dumps_asDict Json.readable_escapeAscii true p
  have hq := loads_dumps_asDict Json.readable_escapeAscii true q
  rw [show Json.dumps Json.escapeAscii true p.asDict = Json.dumps Json.escapeAscii true q.asDict
    from h, hq] at hp
  have hpq := fromMapping_asDict p
  rw [← Except.ok.inj hp, fromMapping_asDict q] at hpq
  exact (Except.ok.inj hpq).symm

theorem make_ok {customerReference productId variantId : Str} {quantity : Int}
    {unitPrice maxUnitPrice : MinorMoney} {supplierCode supplierProductId supplierVariantId : Str}
    {schemaVersion : Json} {p : CanonicalPurchasePayload}
    (h : make customerReference productId variantId quantity unitPrice maxUnitPrice supplierCode
      supplierProductId supplierVariantId schemaVersion = .ok p) :
    p.asDict = .obj [(str "customer_reference", .str customerReference),
      (str "max_unit_price", maxUnitPrice.asDict), (str "product_id", .str productId),
      (str "quantity", .int quantity), (str "schema_version", schemaVersion),
      (str "supplier", .obj [(str "code", .str supplierCode),
        (str "product_id", .str supplierProductId), (str "variant_id", .str supplierVariantId)]),
      (str "unit_price", unitPrice.asDict), (str "variant_id", .str variantId)] := by
  unfold make at h
  split at h
  · cases h
    rfl
  · cases h

/-- **What is read has the mapping that it was read from.** -/
theorem asDict_fromMapping {m : Json} {p : CanonicalPurchasePayload} (h : fromMapping m = .ok p) :
    Json.Same p.asDict m := by
  cases m with
  | obj raw =>
    by_cases hkeys : Json.hasKeys raw [str "customer_reference", str "max_unit_price",
        str "product_id", str "quantity", str "schema_version", str "supplier", str "unit_price",
        str "variant_id"] = true
    · rw [fromMapping, if_pos hkeys] at h
      cases hsupplier : Json.get raw (str "supplier") with
      | obj supplier =>
        rw [hsupplier] at h
        dsimp only at h
        by_cases hsk : Json.hasKeys supplier [str "code", str "product_id", str "variant_id"] = true
        · rw [if_pos hsk] at h
          cases hp : fromMembers raw supplier with
          | error e =>
            rw [hp] at h
            cases h
          | ok q =>
            rw [hp] at h
            obtain rfl : q = p := Except.ok.inj h
            obtain ⟨customer, hcustomer, hp⟩ := except_bind_ok.1 hp
            obtain ⟨product, hproduct, hp⟩ := except_bind_ok.1 hp
            obtain ⟨variant, hvariant, hp⟩ := except_bind_ok.1 hp
            obtain ⟨quantity, hquantity, hp⟩ := except_bind_ok.1 hp
            obtain ⟨price, hprice, hp⟩ := except_bind_ok.1 hp
            obtain ⟨cap, hcap, hp⟩ := except_bind_ok.1 hp
            obtain ⟨code, hcode, hp⟩ := except_bind_ok.1 hp
            obtain ⟨sproduct, hsproduct, hp⟩ := except_bind_ok.1 hp
            obtain ⟨svariant, hsvariant, hp⟩ := except_bind_ok.1 hp
            rw [make_ok hp]
            refine Json.same_obj (Json.hasKeys_map_fst _) hkeys ?_
            intro k (hk : k ∈ [str "customer_reference", str "max_unit_price",
              str "product_id", str "quantity", str "schema_version", str "supplier",
              str "unit_price", str "variant_id"])
            simp only [List.mem_cons, List.not_mem_nil, or_false] at hk
            rcases hk with rfl | rfl | rfl | rfl | rfl | rfl | rfl | rfl
            · rw [asStr_ok hcustomer]
              exact .refl _
            · exact asDict_moneyFromMapping hcap
            · rw [asStr_ok hproduct]
              exact .refl _
            · rw [asInt_ok hquantity]
              exact .refl _
            · exact .refl _
            · rw [hsupplier]
              exact same_supplier hsk hcode hsproduct hsvariant
            · exact asDict_moneyFromMapping hprice
            · rw [asStr_ok hvariant]
              exact .refl _
        · rw [if_neg hsk] at h
          cases h
      | _ =>
        rw [hsupplier] at h
        cases h
    · rw [fromMapping, if_neg hkeys] at h
      cases h
  | _ => cases h

end CanonicalPurchasePayload

/-! ## Comparing orders -/

variable [Hashlib]

/-- Two orders with the same customer, product, variant, quantity, prices and supplier. -/
structure SameOrder (left right : OrderAggregate) : Prop where
  customerReference : left.intent.customerReference = right.intent.customerReference
  productId : left.intent.productId = right.intent.productId
  variantId : left.intent.variantId = right.intent.variantId
  quantity : left.intent.quantity = right.intent.quantity
  unitPrice : left.intent.unitPrice = right.intent.unitPrice
  maxUnitPrice : left.intent.maxUnitPrice = right.intent.maxUnitPrice
  supplierCode : left.supplierAttempt.supplierCode = right.supplierAttempt.supplierCode

/-- Consistent orders with one payload are the same order. -/
theorem OrderAggregate.Invariants.sameOrder {left right : OrderAggregate} (hl : left.Invariants)
    (hr : right.Invariants)
    (h : left.supplierAttempt.requestPayload = right.supplierAttempt.requestPayload) :
    SameOrder left right := by
  have cl := hl.consistent
  have cr := hr.consistent
  simp only [OrderAggregate.consistent, Bool.and_eq_true, decide_eq_true_eq] at cl cr
  obtain ⟨⟨⟨⟨⟨⟨⟨-, l1⟩, l2⟩, l3⟩, l4⟩, l5⟩, l6⟩, l7⟩ := cl
  obtain ⟨⟨⟨⟨⟨⟨⟨-, r1⟩, r2⟩, r3⟩, r4⟩, r5⟩, r6⟩, r7⟩ := cr
  rw [h] at l1 l2 l3 l4 l5 l6 l7
  exact ⟨l2.trans r2.symm, l3.trans r3.symm, l4.trans r4.symm, l5.trans r5.symm,
    l6.trans r6.symm, l7.trans r7.symm, l1.trans r1.symm⟩

/-- The canonical requests are compared as the payloads. -/
theorem sameCanonicalRequest_eq {left right : OrderAggregate} (hl : left.Invariants)
    (hr : right.Invariants) : ∃ same, sameCanonicalRequest left right = .ok same ∧
      (same = true ↔
        left.supplierAttempt.requestPayload = right.supplierAttempt.requestPayload) := by
  have cl := hl.consistent
  have cr := hr.consistent
  simp only [OrderAggregate.consistent, Bool.and_eq_true, decide_eq_true_eq] at cl cr
  have hl' : assertAggregateInvariants left = .ok () := assertAggregateInvariants_ok.2 hl
  have hr' : assertAggregateInvariants right = .ok () := assertAggregateInvariants_ok.2 hr
  refine ⟨_, by rw [sameCanonicalRequest, hl', hr']; rfl, ?_⟩
  rw [Bool.and_eq_true, decide_eq_true_eq, decide_eq_true_eq, cl.1.1.1.1.1.1.1, cr.1.1.1.1.1.1.1]
  constructor
  · exact fun h => CanonicalPurchasePayload.canonicalJson_injective h.2
  · exact fun h => by rw [h]; exact ⟨rfl, rfl⟩

/-- **The codec of the payload**: it is read back from its mapping and from the mapping's
JSON, and the mapping from it; its canonical text is injective; two consistent orders have
the same canonical request exactly where their payloads are equal, and are then the same. -/
theorem payload_codec :
    (∀ p : CanonicalPurchasePayload, CanonicalPurchasePayload.fromMapping p.asDict = .ok p ∧
      ∀ escape ∈ [Json.escapeAscii, Json.escapeText], ∀ sortKeys : Bool,
        ∃ m, Json.loads (Json.dumps escape sortKeys p.asDict) = .ok m ∧
          CanonicalPurchasePayload.fromMapping m = .ok p) ∧
    (∀ (m : Json) (p : CanonicalPurchasePayload),
      CanonicalPurchasePayload.fromMapping m = .ok p → Json.Same p.asDict m) ∧
    (Function.Injective fun p : CanonicalPurchasePayload => p.canonicalJson) ∧
    ∀ left right : OrderAggregate, assertAggregateInvariants left = .ok () →
      assertAggregateInvariants right = .ok () →
      ∃ same, sameCanonicalRequest left right = .ok same ∧
        (same = true ↔
          left.supplierAttempt.requestPayload = right.supplierAttempt.requestPayload) ∧
        (same = true → SameOrder left right) := by
  refine ⟨fun p => ⟨p.fromMapping_asDict, fun escape he sortKeys => ⟨p.asDict, ?_,
    p.fromMapping_asDict⟩⟩, fun m p => CanonicalPurchasePayload.asDict_fromMapping,
    CanonicalPurchasePayload.canonicalJson_injective, fun left right hl hr => ?_⟩
  · have hread : Json.Readable escape := by
      simp only [List.mem_cons, List.not_mem_nil, or_false] at he
      rcases he with rfl | rfl
      · exact Json.readable_escapeAscii
      · exact Json.readable_escapeText
    exact p.loads_dumps_asDict hread sortKeys
  · have hl := assertAggregateInvariants_ok.1 hl
    have hr := assertAggregateInvariants_ok.1 hr
    obtain ⟨same, hsame, hiff⟩ := sameCanonicalRequest_eq hl hr
    exact ⟨same, hsame, hiff, fun h => hl.sameOrder hr (hiff.1 h)⟩

end

section

attribute [local instance] sampleUnicode sampleHashlib

/-- The sample order is read back and is the same as itself, and no longer the same with
another cap. -/
theorem payload_codec_sample :
    (∃ m, Json.loads (samplePayloadOf samplePrice).canonicalJson = .ok m ∧
      CanonicalPurchasePayload.fromMapping m = .ok (samplePayloadOf samplePrice)) ∧
    sameCanonicalRequest (sampleCandidate samplePrice) (sampleCandidate samplePrice) = .ok true ∧
    sameCanonicalRequest (sampleCandidate samplePrice) (sampleCandidate sampleForeignCap) =
      .ok false := by
  obtain ⟨hcodec, -, -, hsame⟩ := payload_codec
  have hl : assertAggregateInvariants (sampleCandidate samplePrice) = .ok () :=
    assertAggregateInvariants_ok.2 ⟨by decide +kernel, by decide +kernel, rfl, by decide +kernel⟩
  have hr : assertAggregateInvariants (sampleCandidate sampleForeignCap) = .ok () :=
    assertAggregateInvariants_ok.2 ⟨by decide +kernel, by decide +kernel, rfl, by decide +kernel⟩
  refine ⟨(hcodec (samplePayloadOf samplePrice)).2 _ List.mem_cons_self true, ?_, ?_⟩
  · obtain ⟨same, h, hiff, -⟩ := hsame _ _ hl hl
    rw [h, hiff.2 rfl]
  · obtain ⟨same, h, hiff, -⟩ := hsame _ _ hl hr
    have hne : samplePayloadOf samplePrice ≠ samplePayloadOf sampleForeignCap := by
      intro h
      have hcap : samplePrice = sampleForeignCap :=
        congrArg CanonicalPurchasePayload.maxUnitPrice h
      exact absurd hcap (by decide +kernel)
    rw [h, Bool.eq_false_iff.2 fun h => hne (hiff.1 h)]

end

end NyanShopBot.Orders
