import TypedAttributes.Version
import TypedAttributes.Proofs.Wire.JsonRoundTrip
import TypedAttributes.Proofs.Attribute.Acceptance
import TypedAttributes.Proofs.Attribute.DecodeEncode
import TypedAttributes.Proofs.Attribute.EncodeDecode
import TypedAttributes.Proofs.Wire.Equality
import TypedAttributes.Proofs.Attribute.EqualityLaws
import TypedAttributes.Proofs.Attribute.SetEquality
import TypedAttributes.Proofs.Attribute.Duplicates
import TypedAttributes.Proofs.Attribute.EqualConversion
import TypedAttributes.Proofs.Attribute.MemberOrder
import TypedAttributes.Proofs.Attribute.UnknownParts
import TypedAttributes.Proofs.Attribute.Leaves
import TypedAttributes.Proofs.Attribute.FindingPaths
import TypedAttributes.Proofs.Attribute.DepthLimit
import TypedAttributes.Proofs.Wire.JsonDecoding
import TypedAttributes.Proofs.Attribute.Documents
import TypedAttributes.Proofs.FirstOccurrence
import TypedAttributes.Proofs.Attribute.Construction
import TypedAttributes.Proofs.Attribute.CustomTypes
import TypedAttributes.Proofs.Attribute.TooDeep
import TypedAttributes.Proofs.Attribute.TypedDuplicates
import TypedAttributes.Proofs.Attribute.CompleteTypes
import TypedAttributes.Proofs.Attribute.SetFindings
import TypedAttributes.Proofs.Attribute.TypeSteps
import TypedAttributes.Proofs.Wire.FirstFault
import TypedAttributes.Proofs.Wire.JsonObstacles
import TypedAttributes.Proofs.Attribute.MapEntries
import TypedAttributes.Proofs.Wire.DisplayedText
