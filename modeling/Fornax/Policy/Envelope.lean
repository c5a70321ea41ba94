import Fornax.Policy.Publish

open List

namespace Fornax

def auditCheckpointSigningDomain : Bytes := asciiBytes "fornax-audit-checkpoint/v1\n"

def signingDomains : List Bytes :=
  [bundleSigningDomain, revocationSigningDomain, auditCheckpointSigningDomain]

theorem append_ne_of_not_prefix {d e : Bytes} (hde : ¬ d <+: e) (hed : ¬ e <+: d) (p q : Bytes) :
    d ++ p ≠ e ++ q := by
  intro h
  have hd : d <+: e ++ q := h ▸ prefix_append d p
  rcases prefix_or_prefix_of_prefix hd (prefix_append e q) with hprefix | hprefix
  · exact hde hprefix
  · exact hed hprefix

theorem signingDomains_disjoint :
    signingDomains.Pairwise fun d e => ¬ d <+: e ∧ ¬ e <+: d ∧ ∀ p q, d ++ p ≠ e ++ q := by
  have hprefix : signingDomains.Pairwise fun d e => ¬ d <+: e ∧ ¬ e <+: d := by decide +kernel
  exact hprefix.imp fun h => ⟨h.1, h.2, append_ne_of_not_prefix h.1 h.2⟩

section

variable {c : Crates} {payloadB64 : String} {signatures : List BundleSignature} {domain : Bytes}
  {maxBytes : ℕ} {trusted : TrustedVerificationKeys} {now : Instant}
  (hone : 1 ≤ signatures.length) (hmany : signatures.length ≤ maxSignatures)
include hone hmany

theorem verifySignedEnvelope_eq :
    verifySignedEnvelope c payloadB64 signatures domain maxBytes trusted now =
      match c.decodeBase64 payloadB64 with
      | .error detail => .error (.malformedPayloadEncoding detail)
      | .ok payload =>
        if payload.length > maxBytes then .error (.payloadTooLarge payload.length maxBytes)
        else
          let check := checkSignature c trusted (domain ++ payload) now
          match signatures.find? fun sig => check sig = .verified with
          | some sig => .ok ⟨payload, sig.keyId⟩
          | none => .error (refusalOf check signatures) := by
  rw [verifySignedEnvelope, if_neg (ne_nil_of_length_pos hone), if_neg (by omega)]
  cases c.decodeBase64 payloadB64 with
  | error detail => rfl
  | ok payload =>
    simp only [Except.mapError, bind, Except.bind]
    split
    · rfl
    · rw [verdict_scanSignatures]
      cases signatures.find? fun sig =>
        checkSignature c trusted (domain ++ payload) now sig = .verified <;> rfl

theorem isOk_verifySignedEnvelope_iff :
    (verifySignedEnvelope c payloadB64 signatures domain maxBytes trusted now).isOk ↔
      ∃ payload, c.decodeBase64 payloadB64 = .ok payload ∧ payload.length ≤ maxBytes ∧
        ∃ sig ∈ signatures, Checked c trusted now (domain ++ payload) sig true := by
  rw [verifySignedEnvelope_eq hone hmany]
  cases c.decodeBase64 payloadB64 with
  | error detail => simp [Except.isOk, Except.toBool]
  | ok payload =>
    simp only [Except.ok.injEq, exists_eq_left', ← checkSignature_eq_ofOutcome,
      SignatureCheck.ofOutcome]
    by_cases hlarge : payload.length > maxBytes
    · simp [hlarge, Except.isOk, Except.toBool]
    · rw [if_neg hlarge]
      cases hfind : signatures.find? fun sig =>
          checkSignature c trusted (domain ++ payload) now sig = .verified with
      | none => simpa [Except.isOk, Except.toBool] using fun _ => hfind
      | some sig =>
        have hverified := find?_some hfind
        simp only [decide_eq_true_eq] at hverified
        exact iff_of_true rfl
          ⟨Nat.le_of_not_lt hlarge, sig, mem_of_find?_eq_some hfind, hverified⟩

end

theorem envelope_threshold_one (c : Crates) (payloadB64 : String) (domain : Bytes) (maxBytes : ℕ)
    (trusted : TrustedVerificationKeys) (now : Instant) :
    (∀ signatures : List BundleSignature, 1 ≤ signatures.length →
      signatures.length ≤ maxSignatures →
      ((verifySignedEnvelope c payloadB64 signatures domain maxBytes trusted now).isOk ↔
        ∃ payload, c.decodeBase64 payloadB64 = .ok payload ∧ payload.length ≤ maxBytes ∧
          ∃ sig ∈ signatures, Checked c trusted now (domain ++ payload) sig true) ∧
      (∀ others, signatures.Perm others →
        (verifySignedEnvelope c payloadB64 others domain maxBytes trusted now).isOk =
          (verifySignedEnvelope c payloadB64 signatures domain maxBytes trusted now).isOk) ∧
      ∀ payload e, c.decodeBase64 payloadB64 = .ok payload → payload.length ≤ maxBytes →
        verifySignedEnvelope c payloadB64 signatures domain maxBytes trusted now = .error e →
        ((∃ sig ∈ signatures, Checked c trusted now (domain ++ payload) sig false) →
          ∃ keyIds, e = .signatureInvalid keyIds) ∧
        ((∀ sig ∈ signatures, ¬ Checked c trusted now (domain ++ payload) sig false) →
          e = (signatures.findSome? fun sig =>
            (checkSignature c trusted (domain ++ payload) now sig).skipReason).getD
              (.unknownKeyId (signatures.map BundleSignature.keyId)))) ∧
    signingDomains.Pairwise fun d e => ¬ d <+: e ∧ ¬ e <+: d ∧ ∀ p q, d ++ p ≠ e ++ q := by
  refine ⟨fun signatures hone hmany => ⟨?_, ?_, ?_⟩, signingDomains_disjoint⟩
  · exact isOk_verifySignedEnvelope_iff hone hmany
  · intro others hperm
    have hlen := hperm.length_eq
    rw [Bool.eq_iff_iff, isOk_verifySignedEnvelope_iff hone hmany,
      isOk_verifySignedEnvelope_iff (hlen ▸ hone) (hlen ▸ hmany)]
    simp only [hperm.mem_iff]
  · intro payload e hdecode hlarge herror
    rw [verifySignedEnvelope_eq hone hmany, hdecode] at herror
    simp only [if_neg (Nat.not_lt.mpr hlarge)] at herror
    have he : e = refusalOf (checkSignature c trusted (domain ++ payload) now) signatures := by
      split at herror
      · cases herror
      · exact (Except.error.inj herror).symm
    simp only [he, refusalOf, ← checkSignature_eq_ofOutcome, SignatureCheck.ofOutcome]
    constructor
    · rintro ⟨sig, hsig, hfailed⟩
      exact ⟨_, if_pos (ne_nil_of_mem (mem_filter.mpr ⟨hsig, by simpa using hfailed⟩))⟩
    · intro hnone
      rw [if_neg (by simpa using hnone)]

/-- A signature that verifies does not carry a payload past the size bound. -/
theorem oversized_payload_refused :
    let payload : Bytes := replicate (maxPayloadBytes + 1) 0
    let c : Crates := { oneBundleCrates with
      decodeBase64 := fun text => .ok (if text = "p" then payload else asciiBytes text) }
    let sig : BundleSignature := ⟨"k1", .ed25519, String.ofList (replicate 64 's')⟩
    Checked c oneBundleKeys 0 (bundleSigningDomain ++ payload) sig true ∧
      verifySignedEnvelope c "p" [sig] bundleSigningDomain maxPayloadBytes oneBundleKeys 0 =
        .error (.payloadTooLarge (maxPayloadBytes + 1) maxPayloadBytes) := by
  refine ⟨checkSignature_eq_ofOutcome.mp (by decide +kernel), ?_⟩
  rw [verifySignedEnvelope_eq (by decide) (by decide)]
  simp

end Fornax
