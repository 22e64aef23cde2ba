import XaeroFlux.Rendezvous

/-!
# A signed config tampered with

The bytes that are signed are read back as the config they are of (`canonicalBytes_injective`), so
with the signer and the signature kept, nothing but the config signed verifies.
-/

namespace XaeroFlux

theorem Json.toVec_injective : Function.Injective Json.toVec := by
  intro j j' h
  have hread := congrArg Json.fromSlice h
  rw [Json.fromSlice_toVec, Json.fromSlice_toVec] at hread
  exact Option.some.inj hread

theorem Json.ofOption_injective : Function.Injective Json.ofOption := by
  intro a b h
  have hstr := congrArg Json.asStr h
  rwa [Json.asStr_ofOption, Json.asStr_ofOption] at hstr

theorem BootstrapInfo.toJson_injective : Function.Injective BootstrapInfo.toJson := by
  intro b b' h
  simp only [toJson, Json.obj.injEq, List.cons.injEq, Prod.mk.injEq, Json.str.injEq, true_and,
    and_true, Json.arr.injEq] at h
  obtain ⟨hid, haddr⟩ := h
  have haddr' := List.map_injective_iff.2 (fun _ _ => Json.str.inj) haddr
  rcases b with ⟨_, _⟩
  rcases b' with ⟨_, _⟩
  simp_all

theorem RendezvousConfig.toJson_injective : Function.Injective RendezvousConfig.toJson := by
  intro c c' h
  simp only [toJson, Json.obj.injEq, List.cons.injEq, Prod.mk.injEq, Json.str.injEq, true_and,
    and_true, Json.int.injEq, Int.natCast_inj, UInt64.toNat_inj] at h
  obtain ⟨henv, hkey, hboot, hrelay, hts⟩ := h
  have hboot' := BootstrapInfo.toJson_injective hboot
  have hrelay' := Json.ofOption_injective hrelay
  rcases c with ⟨_, _, _, _, _⟩
  rcases c' with ⟨_, _, _, _, _⟩
  simp_all

theorem canonicalBytes_injective : Function.Injective canonicalBytes := fun _ _ h =>
  RendezvousConfig.toJson_injective (Json.toVec_injective h)

namespace Signing

variable {κ σ : Type} {sg : Signing κ σ}

theorem toSignature_toList (s : Signature) : toSignature s.toList = .ok s := by
  have hlen : s.toList.length = 64 := Vector.length_toList
  rw [toSignature, dif_pos hlen]
  rfl

/-- What is signed with a key is verified with its public key. -/
theorem verifyConfig_eq {c : RendezvousConfig} {sk : σ} {s : SignedRendezvousConfig}
    (hsigner : s.signer = (sg.signConfig c sk).signer)
    (hsignature : s.signature = (sg.signConfig c sk).signature) :
    sg.verifyConfig s =
      (sg.verify (sg.publicKey sk) (canonicalBytes s.config)
        (sg.sign sk (canonicalBytes c))).mapError
          ("rendezvous signature verification failed: " ++ ·) := by
  rw [verifyConfig, hsigner, hsignature, signConfig, sg.keys.fromStr_toStr, sg.decode_hex]
  simp only [Except.mapError, bind, Except.bind, toSignature_toList]

theorem mapError_eq_ok {ε ε' α : Type} {f : ε → ε'} {x : Except ε α} {a : α} :
    x.mapError f = .ok a ↔ x = .ok a := by
  cases x <;> simp [Except.mapError]

/-- Different configs have different bytes, and with the signer and the signature of a config that
config and no other verifies. -/
theorem tamper_evident (sg : Signing κ σ) :
    Function.Injective canonicalBytes
      ∧ ∀ (c : RendezvousConfig) (sk : σ) (s : SignedRendezvousConfig),
        sg.Ideal sk (canonicalBytes c) → s.signer = (sg.signConfig c sk).signer →
        s.signature = (sg.signConfig c sk).signature →
        (sg.verifyConfig s = .ok () ↔ s.config = c) := by
  refine ⟨canonicalBytes_injective, fun c sk s hideal hsigner hsignature => ?_⟩
  rw [verifyConfig_eq hsigner hsignature, mapError_eq_ok, hideal, canonicalBytes_injective.eq_iff]

def devConfig : RendezvousConfig where
  env := "dev"
  discoveryKey := "cyan-dev"
  bootstrap := ⟨"node", ["127.0.0.1:4242"]⟩
  relayUrl := none
  ts := 1700000000

/-- One key, whose one signature is that of `devConfig`. -/
def devSigning : Signing Unit Unit where
  keys := .only "node"
  publicKey _ := ()
  sign _ _ := Vector.replicate 64 0
  verify _ bytes _ := if bytes = canonicalBytes devConfig then .ok () else .error "bad signature"
  decode s := (Utf8.unhex s.toList).elim (.error "odd length") .ok
  decode_hex bytes := by rw [Utf8.hex, String.toList_ofList, Utf8.unhex_hex, Option.elim_some]

/-- The config signed, with another time. -/
def redated : SignedRendezvousConfig :=
  { devSigning.signConfig devConfig () with config := { devConfig with ts := 0 } }

theorem tamper_evident_redated : ¬ devSigning.verifyConfig redated = .ok () := by
  have hideal : devSigning.Ideal () (canonicalBytes devConfig) := by
    intro bytes
    simp [devSigning]
  intro h
  have hconfig : redated.config = devConfig :=
    ((tamper_evident devSigning).2 devConfig () redated hideal rfl rfl).1 h
  exact absurd hconfig (by decide)

end Signing

end XaeroFlux
