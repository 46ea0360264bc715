import ThresholdBls.Bn254.Suite
import ThresholdBls.Random
import ThresholdBls.Session
import ThresholdBls.Sharing.Round
import ThresholdBls.Wire.Form
import ThresholdBls.Proofs.Arithmetic.Field
import ThresholdBls.Proofs.Arithmetic.Primality
import ThresholdBls.Proofs.Bn254.Primes
import ThresholdBls.Proofs.Bn254.Extension
import ThresholdBls.Proofs.Curve.Group
import ThresholdBls.Proofs.Curve.Multiples
import ThresholdBls.Proofs.Bn254.Groups
import ThresholdBls.Proofs.Bn254.HashToCurve
import ThresholdBls.Proofs.Bn254.Pairing
import ThresholdBls.Proofs.Interpolation.Lagrange
import ThresholdBls.Proofs.Interpolation.Recovery
import ThresholdBls.Proofs.IndexMap
import ThresholdBls.Proofs.ShareSet.Checked
import ThresholdBls.Proofs.ShareSet.Invariant
import ThresholdBls.Proofs.ShareSet.Runs
import ThresholdBls.Proofs.Signing
import ThresholdBls.Proofs.ThresholdSigning
import ThresholdBls.Proofs.HintedVerification
import ThresholdBls.Proofs.Sharing.Feldman
import ThresholdBls.Proofs.Sharing.Consistency
import ThresholdBls.Proofs.Text.Numerals
import ThresholdBls.Proofs.WrittenForm
import ThresholdBls.Proofs.AcceptedShares
import ThresholdBls.Proofs.Interpolation.PublicRecovery
import ThresholdBls.Proofs.Sharing.Dealing
import ThresholdBls.Proofs.Validity.Values
import ThresholdBls.Proofs.Recombination
import ThresholdBls.Proofs.Sharing.Secrecy
import ThresholdBls.Proofs.UniqueSignature
import ThresholdBls.Proofs.Validity.Decoding
import ThresholdBls.Proofs.Validity.History
import ThresholdBls.Proofs.AggregateVerification
import ThresholdBls.Proofs.Text.Canonical
import ThresholdBls.Proofs.Text.Signatures
import ThresholdBls.Proofs.Json.Tokens
import ThresholdBls.Proofs.Json.Reading
import ThresholdBls.Proofs.Wire.RoundTrip
import ThresholdBls.Proofs.Interpolation.Coefficients
import ThresholdBls.Proofs.Sharing.CommittedValue
import ThresholdBls.Proofs.Bn254.FirstPoint
import ThresholdBls.Proofs.UniqueHint
import ThresholdBls.Proofs.Bn254.Termination
import ThresholdBls.Proofs.CorruptedShare
import ThresholdBls.Proofs.Sharing.PublicDerivation
import ThresholdBls.Proofs.Possession
import ThresholdBls.Proofs.Sharing.HeldPolynomial
import ThresholdBls.Proofs.Text.Coordinates
import ThresholdBls.Proofs.Sharing.Rounds
import ThresholdBls.Proofs.Sessions
