import SecurityProfiles.AppArmor.Abstract
import SecurityProfiles.Profiles.Selinux
import SecurityProfiles.Library.FilePath

namespace SecurityProfiles.Selinux

structure Options where
  deniedTypes : List String
  deniedClasses : List String
  deniedPermissions : List String
  allowedTypes : List String
  allowedClasses : List String
  allowedPermissions : List String
deriving DecidableEq

structure DeniedOptions where
  deniedTypes : List String
  deniedClasses : List String
  deniedPermissions : List String
deriving DecidableEq

/-- What is denied unless it is allowed explicitly. -/
def deniedDefaults : DeniedOptions where
  deniedTypes := ["kernel_t", "kmem_t", "security_t", "shadow_t"]
  deniedClasses := ["capability", "capability2", "security", "system"]
  deniedPermissions :=
    ["load_policy", "mac_admin", "mounton", "relabelto", "relabelfrom", "setbool", "setenforce", "setsecparam"]

def adjustDenied (defaults allowed denied : List String) : List String :=
  defaults.filter (· ∉ allowed) ++ denied

def deniedOptionsFromOpts : Option Options → DeniedOptions
  | none => deniedDefaults
  | some options =>
    { deniedTypes := adjustDenied deniedDefaults.deniedTypes options.allowedTypes options.deniedTypes
      deniedClasses := adjustDenied deniedDefaults.deniedClasses options.allowedClasses options.deniedClasses
      deniedPermissions :=
        adjustDenied deniedDefaults.deniedPermissions options.allowedPermissions options.deniedPermissions }

structure Profile where
  name : String
  permissive : Bool
  allow : Allow

def getPolicyName (profile : Profile) : Str := FilePath.base profile.name.toList

def getPolicyUsage (profile : Profile) : Str := getPolicyName profile ++ ".process".toList

/-- The label that stands for the processes of the profile itself. -/
def allowSelf : String := "@self"

inductive RuleError where
  | invalidIdentifier (kind : String) (value : Str)
  | typeDenied (ttype : String)
  | classDenied (tclass : String)
  | permissionDenied (perm : String)

inductive CilError where
  | profileName (name : String)
  | inherited (error : RuleError)
  | rule (ttype tclass : String) (error : RuleError)

def isBlockName : Str → Bool
  | [] => false
  | first :: rest => first.isAlpha && rest.all fun char => char.isAlphanum || char = '-' || char = '_'

def isIdentifierChar (char : Char) : Bool := char.isAlphanum || char = '-' || char = '.' || char = '_'

def isIdentifier (value : Str) : Bool := value ≠ [] && value.all isIdentifierChar

def validateIdentifier (kind : String) (value : Str) : Except RuleError Unit :=
  Fallible.require (isIdentifier value) (.invalidIdentifier kind value)

def validateType (ttype : String) : Except RuleError Unit :=
  if ttype = allowSelf then .ok () else validateIdentifier "type" ttype.toList

def validateSemanticRule (denied : DeniedOptions) (ttype tclass : String) (perms : PermissionSet) :
    Except RuleError Unit := do
  validateType ttype
  validateIdentifier "class" tclass.toList
  perms.forM fun perm => validateIdentifier "permission" perm.toList
  Fallible.require (ttype ∉ denied.deniedTypes) (.typeDenied ttype)
  Fallible.require (tclass ∉ denied.deniedClasses) (.classDenied tclass)
  perms.forM fun perm => Fallible.require (perm ∉ denied.deniedPermissions) (.permissionDenied perm)

def getCILStart (profile : Profile) : Str := "(block ".toList ++ profile.name.toList ++ "\n".toList

def getCILInheritline (inherit : Str) : Str := "(blockinherit ".toList ++ inherit ++ ")\n".toList

def typePermissive : Str := "(typepermissive process)".toList

/-- The type that a label of the profile stands for. -/
def finalType (profile : Profile) (ttype : String) : Str :=
  if ttype = allowSelf then getPolicyUsage profile else ttype.toList

/-- The permissions, each of them once and in order. -/
def uniquePerms (perms : PermissionSet) : List Str := (Text.compact (Text.sort perms)).map String.toList

def getCILAllowLine (profile : Profile) (ttype tclass : String) (perms : PermissionSet) : Str :=
  "(allow process ".toList ++ finalType profile ttype ++ " ( ".toList ++ tclass.toList ++ " ( ".toList ++
    [' '].intercalate (uniquePerms perms) ++ " )))\n".toList

def getCILEnd : Str := ")\n".toList

/-- An entry of the allow rules of a profile. -/
structure Rule where
  ttype : String
  tclass : String
  perms : PermissionSet
deriving DecidableEq

/-- The rules in the order of their labels and classes. -/
def rules (allow : Allow) : List Rule :=
  allow.entries.flatMap fun label => label.2.entries.map fun objClass => ⟨label.1, objClass.1, objClass.2⟩

def systemContainerInherit : Str := "container".toList

/-- The policies that the block inherits from. That of the system is inherited unless an object is, which inherits
it. -/
def inheritedBlocks (systemInherits objInherits : List Str) : List Str :=
  (if objInherits = [] then [systemContainerInherit] else []) ++ systemInherits.filter
    (· ≠ systemContainerInherit) ++ objInherits

def ruleLine (denied : DeniedOptions) (profile : Profile) (rule : Rule) : Except CilError Str :=
  match validateSemanticRule denied rule.ttype rule.tclass rule.perms with
  | .error error => .error (.rule rule.ttype rule.tclass error)
  | .ok () => .ok (getCILAllowLine profile rule.ttype rule.tclass rule.perms)

def validateInherited (inherit : Str) : Except CilError Unit :=
  (validateIdentifier "inherited policy" inherit).mapError .inherited

def policyText (profile : Profile) (inherits : List Str) (allowLines : List Str) : Str :=
  getCILStart profile ++ inherits.flatMap getCILInheritline ++
    (if profile.permissive then typePermissive ++ "\n".toList else []) ++ allowLines.flatten ++ getCILEnd

/-- `object2CIL` is given the names of the policies that the objects to inherit from have. -/
def object2CIL (systemInherits objInherits : List Str) (profile : Profile) (options : Option Options) :
    Except CilError Str := do
  Fallible.require (isBlockName profile.name.toList) (.profileName profile.name)
  (systemInherits ++ objInherits).forM validateInherited
  let allowLines ← (rules profile.allow).mapM (ruleLine (deniedOptionsFromOpts options) profile)
  pure (policyText profile (inheritedBlocks systemInherits objInherits) allowLines)

end SecurityProfiles.Selinux
