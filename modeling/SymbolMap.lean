import SymbolMap.MappingSet.Query
import SymbolMap.Proofs.Descriptor.Grammar
import SymbolMap.Proofs.Descriptor.PrefixCode
import SymbolMap.Proofs.Descriptor.RoundTrip
import SymbolMap.Proofs.Descriptor.Substitution
import SymbolMap.Proofs.Draft.Building
import SymbolMap.Proofs.Draft.ClassLookup
import SymbolMap.Proofs.Draft.ClassResolution
import SymbolMap.Proofs.Draft.Diagnostics
import SymbolMap.Proofs.Draft.MethodCalls
import SymbolMap.Proofs.Draft.MethodResolution
import SymbolMap.Proofs.Draft.Regrouping
import SymbolMap.Proofs.Draft.StoredNames
import SymbolMap.Proofs.Element.LocalContests
import SymbolMap.Proofs.Element.LocalFinding
import SymbolMap.Proofs.Element.LocalVariables
import SymbolMap.Proofs.Element.Parameters
import SymbolMap.Proofs.Format.Lines
import SymbolMap.Proofs.Format.Registering
import SymbolMap.Proofs.MappingSet.MemberLookup
import SymbolMap.Proofs.MappingSet.MemberUnion
import SymbolMap.Proofs.MappingSet.MergedArrays
import SymbolMap.Proofs.MappingSet.NameQueries
import SymbolMap.Proofs.MappingSet.QualifiedNames
import SymbolMap.Proofs.MappingSet.Refusals
import SymbolMap.Proofs.MappingSet.Respelling
import SymbolMap.Proofs.MappingSet.SpellableNames
import SymbolMap.Proofs.MappingSet.Structure
import SymbolMap.Proofs.MappingSet.ThereAndBack
import SymbolMap.Proofs.Workspace.Namespaces
import SymbolMap.Proofs.Workspace.Provenance
