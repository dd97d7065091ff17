import ClassFile.Descriptor.Order
import ClassFile.Program.Equality
import ClassFile.Proofs.Agreement
import ClassFile.Proofs.Signature.Writing
import ClassFile.Signature.Grammar
import ClassFile.Walk.Class
import ClassFile.Proofs.Signature.Text
import ClassFile.Proofs.DescriptorErasure
import ClassFile.Proofs.Signature.DeclarationText
import ClassFile.Proofs.Names
import ClassFile.Proofs.Signature.Splitting
import ClassFile.Proofs.Signature.Omission
import ClassFile.Proofs.Signature.ReadBack
import ClassFile.Proofs.Signature.DeclarationReader
import ClassFile.Proofs.Signature.Structure
import ClassFile.Proofs.Signature.DeclarationReadBack
import ClassFile.Proofs.Signature.DeclarationStructure
import ClassFile.Proofs.Signature.BinaryText
import ClassFile.Proofs.Walk.Declining
import ClassFile.Proofs.Walk.TypeAnnotations
import ClassFile.Proofs.Signature.Parts
import ClassFile.Proofs.Signature.BoundsOnce
import ClassFile.Proofs.Unannotated
import ClassFile.Proofs.Walk.AnnotationValues
import ClassFile.Proofs.Signature.Supertypes
import ClassFile.Proofs.Signature.Growth
import ClassFile.Proofs.Walk.BoundNumbers
import ClassFile.Proofs.Walk.Unbroken
import ClassFile.Proofs.Descriptor.MethodText
import ClassFile.Proofs.Signature.Signed
import ClassFile.Proofs.Walk.MethodPlaces
import ClassFile.Proofs.Signature.Trees
import ClassFile.Proofs.ErasureWay
import ClassFile.Proofs.InternalNames
import ClassFile.Proofs.Signature.ThrownNames
import ClassFile.Proofs.Walk.Announcing
import ClassFile.Proofs.Walk.Tellable
import ClassFile.Proofs.Walk.CountLimits
import ClassFile.Proofs.Walk.SupertypePlaces
import ClassFile.Proofs.Signature.Segments
import ClassFile.Proofs.Descriptor.Ranks
import ClassFile.Proofs.MetaAnnotations
import ClassFile.Proofs.Walk.AnnotationGroups
import ClassFile.Proofs.VersionNumbers
import ClassFile.Proofs.Signature.Brackets
import ClassFile.Proofs.PathText
