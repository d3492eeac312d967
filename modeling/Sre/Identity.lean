/- GID: Sre/Identity
   digest: Scopes, identifiers and engineers, and the policy that binds groups to permissions. -/

import Sre.Platform
import Sre.Foundation.Outcome

set_option autoImplicit false

namespace Sre.Identity

structure Scope where
  organizationID : Text
  clusterID : Text
  applicationID : Text
  deriving DecidableEq

def idChar (c : Char) : Bool :=
  decide ('a' ≤ c ∧ c ≤ 'z' ∨ 'A' ≤ c ∧ c ≤ 'Z' ∨ '0' ≤ c ∧ c ≤ '9' ∨ c = '_' ∨ c = '-')

def ValidID (id : Text) : Bool :=
  decide (byteSize id ≠ 0 ∧ byteSize id ≤ 128) && id.all idChar

def Scope.validate (s : Scope) : Bool :=
  ValidID s.organizationID && ValidID s.clusterID && ValidID s.applicationID

def Scope.key (s : Scope) : Text :=
  s.organizationID ++ '/' :: s.clusterID ++ '/' :: s.applicationID

/-- The principal's display fields are left out: no check reads them. -/
structure Principal where
  id : Text
  issuer : Text
  groups : List Text
  issuedAt : Time
  expiresAt : Time

def MaxIdentityAge : Duration := 15 * minute

def Principal.valid (p : Principal) (now : Time) : Bool :=
  ValidID p.id && decide (p.issuer ≠ [] ∧ p.issuedAt ≠ 0 ∧ p.issuedAt ≤ now + 30 * second ∧
    now < p.expiresAt ∧ now - p.issuedAt ≤ MaxIdentityAge)

end Sre.Identity

namespace Sre.Authorization

open Identity

inductive Role where
  | viewer
  | investigator
  | owner
  | approver
  | steward
  | administrator
  | securityAdministrator

inductive Permission where
  | read
  | investigate
  | feedback
  | approve
  | adjudicate
  | reviewKnowledge
  | setup
  | securityPolicy
  deriving DecidableEq

def permissions : Role → List Permission
  | .viewer => [.read]
  | .investigator => [.read, .investigate, .feedback]
  | .owner => [.read, .investigate, .feedback, .approve]
  | .approver => [.read, .approve]
  | .steward => [.read, .feedback, .adjudicate, .reviewKnowledge]
  | .administrator => [.setup]
  | .securityAdministrator => [.securityPolicy]

structure Binding where
  scope : Scope
  group : Text
  role : Role

structure Policy where
  bindings : List Binding
  version : Text

def Policy.grants (p : Policy) (principal : Principal) (scope : Scope) (permission : Permission) :
    Bool :=
  p.bindings.any fun b =>
    decide (b.scope = scope) && (principal.groups.any fun group =>
      decide (b.group = group) && decide (permission ∈ permissions b.role))

def Policy.authorize (p : Policy) (principal : Principal) (scope : Scope) (permission : Permission)
    (now : Time) : Except Error Unit :=
  Foundation.Outcome.require
    (scope.validate && principal.valid now && p.grants principal scope permission) .forbidden

end Sre.Authorization
