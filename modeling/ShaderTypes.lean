import ShaderTypes.Module
import ShaderTypes.Operation
import ShaderTypes.Store.Summary
import ShaderTypes.Proofs.TypeTable.Identity
import ShaderTypes.Proofs.Lowering.Change
import ShaderTypes.Proofs.Lowering.Completion
import ShaderTypes.Proofs.Lowering.Description
import ShaderTypes.Proofs.Lowering.Faithful
import ShaderTypes.Proofs.TypeTable.Canonical
import ShaderTypes.Proofs.TypeTable.Families
import ShaderTypes.Proofs.TypeTable.Rules
import ShaderTypes.Proofs.Store.Advance
import ShaderTypes.Proofs.Store.Requests
import ShaderTypes.Proofs.Lowering.Order
import ShaderTypes.Proofs.Lowering.Repetition
import ShaderTypes.Proofs.Lowering.Stability
import ShaderTypes.Proofs.Lowering.Fallback
import ShaderTypes.Proofs.Lowering.Unstamped
import ShaderTypes.Proofs.TypeTable.Keys
import ShaderTypes.Proofs.TypeTable.Section
import ShaderTypes.Proofs.Lowering.Failure
import ShaderTypes.Proofs.Lowering.Confluence
import ShaderTypes.Proofs.Lowering.Membership
import ShaderTypes.Proofs.Lowering.Bits
import ShaderTypes.Proofs.Store.Files
import ShaderTypes.Proofs.Store.Scopes
import ShaderTypes.Proofs.Lowering.Touches
import ShaderTypes.Proofs.Store.History
import ShaderTypes.Proofs.Store.CurrentScope
import ShaderTypes.Proofs.Lowering.Layout
import ShaderTypes.Proofs.Store.FirstRequest
import ShaderTypes.Proofs.Lowering.Remembered
import ShaderTypes.Proofs.Lowering.Surplus
import ShaderTypes.Proofs.Store.Templates
import ShaderTypes.Proofs.Lowering.Idempotence
import ShaderTypes.Proofs.Lowering.Untouched
import ShaderTypes.Proofs.Lowering.Exactness
import ShaderTypes.Proofs.Module.Shown
import ShaderTypes.Proofs.Store.Nesting
import ShaderTypes.Proofs.Store.Provenance
