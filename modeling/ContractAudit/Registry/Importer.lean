import ContractAudit.Registry.Module

/-! How modules are imported. What an import gives may depend on everything that was imported
before it, and so may what it leaves. -/

namespace ContractAudit

structure Importer where
  State : Type
  loaded : State → String → Option Namespace
  search : State → String → State
  importing : State → String → State × Except ImportFault Namespace

end ContractAudit
