import DeviceTrust.Main
import DeviceTrust.Proofs.Base64.Canonical
import DeviceTrust.Proofs.Base64.Language
import DeviceTrust.Proofs.Base64.Text
import DeviceTrust.Proofs.Bytes
import DeviceTrust.Proofs.Json.List
import DeviceTrust.Proofs.Json.Number
import DeviceTrust.Proofs.Json.Object
import DeviceTrust.Proofs.Json.Record
import DeviceTrust.Proofs.Json.RecordForms
import DeviceTrust.Proofs.Json.Text
import DeviceTrust.Proofs.Json.Trimming
import DeviceTrust.Proofs.Json.Value
import DeviceTrust.Proofs.Json.Writing
import DeviceTrust.Proofs.Jws.Arena
import DeviceTrust.Proofs.Jws.Attestation
import DeviceTrust.Proofs.Jws.BoundedDecoding
import DeviceTrust.Proofs.Jws.ChainOfTrust
import DeviceTrust.Proofs.Jws.CheckedAuthentication
import DeviceTrust.Proofs.Jws.Compact
import DeviceTrust.Proofs.Jws.Decoding
import DeviceTrust.Proofs.Jws.Faultless
import DeviceTrust.Proofs.Jws.Faults
import DeviceTrust.Proofs.Jws.Field
import DeviceTrust.Proofs.Jws.KeySelection
import DeviceTrust.Proofs.Jws.Leftovers
import DeviceTrust.Proofs.Jws.Outcome
import DeviceTrust.Proofs.Jws.Padding
import DeviceTrust.Proofs.Jws.RecoveredBlock
import DeviceTrust.Proofs.Jws.Segments
import DeviceTrust.Proofs.Jws.Signature
import DeviceTrust.Proofs.Jws.SignedChain
import DeviceTrust.Proofs.Jws.Simulation
import DeviceTrust.Proofs.Jws.Verification
import DeviceTrust.Proofs.Provisioning.Assignment
import DeviceTrust.Proofs.Provisioning.Batch
import DeviceTrust.Proofs.Provisioning.CallOrder
import DeviceTrust.Proofs.Provisioning.Classification
import DeviceTrust.Proofs.Provisioning.Completion
import DeviceTrust.Proofs.Provisioning.Consistency
import DeviceTrust.Proofs.Provisioning.Credentials
import DeviceTrust.Proofs.Provisioning.CustomPayload
import DeviceTrust.Proofs.Provisioning.ExactFit
import DeviceTrust.Proofs.Provisioning.FinalResult
import DeviceTrust.Proofs.Provisioning.Marks
import DeviceTrust.Proofs.Provisioning.Moment
import DeviceTrust.Proofs.Provisioning.Pieces
import DeviceTrust.Proofs.Provisioning.Polling
import DeviceTrust.Proofs.Provisioning.Refusals
import DeviceTrust.Proofs.Provisioning.Release
import DeviceTrust.Proofs.Provisioning.RequestObject
import DeviceTrust.Proofs.Provisioning.ResponseForms
import DeviceTrust.Proofs.Provisioning.Step
import DeviceTrust.Proofs.Provisioning.TimeBudget
import DeviceTrust.Proofs.Provisioning.Timeout
import DeviceTrust.Proofs.Provisioning.Token
import DeviceTrust.Proofs.Provisioning.TopicGrammar
import DeviceTrust.Proofs.Provisioning.Turns
import DeviceTrust.Proofs.Provisioning.Waiting
import DeviceTrust.Proofs.Provisioning.Watching
import DeviceTrust.Proofs.Provisioning.WorkingBuffer
import DeviceTrust.Proofs.Region
import DeviceTrust.Proofs.Rsa
import DeviceTrust.Proofs.Sequence
import DeviceTrust.Proofs.Text
import DeviceTrust.Proofs.Tool.Credentials
import DeviceTrust.Proofs.Tool.WhiteSpace
import DeviceTrust.Provisioning.Registration
