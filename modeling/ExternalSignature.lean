import ExternalSignature.Proofs.Binding
import ExternalSignature.Proofs.SdkChallenge
import ExternalSignature.Proofs.Duration
import ExternalSignature.Proofs.NonceScan
import ExternalSignature.Proofs.ClientData
import ExternalSignature.Proofs.SignCounter
import ExternalSignature.Proofs.RoundTrip
import ExternalSignature.Proofs.BrowserData
import ExternalSignature.Proofs.Wrapping
import ExternalSignature.Proofs.Allocator
import ExternalSignature.Proofs.Der
import ExternalSignature.Proofs.Cbor
import ExternalSignature.Proofs.Wallet
import ExternalSignature.Proofs.Authorization
import ExternalSignature.Proofs.Flow
import ExternalSignature.Proofs.ExecuteFlow
import ExternalSignature.Proofs.ChallengeContext
import ExternalSignature.Proofs.Schedule
import ExternalSignature.Proofs.SdkAgreement
import ExternalSignature.Proofs.Packing
