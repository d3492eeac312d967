/- GID: Sre/Durability
   digest: The stores that replace a file keep it with their memory, but for what follows the rename. -/

import Sre.Remediation.Durable
import Sre.Remediation.Proposals
import Sre.Scanner.Durable

set_option autoImplicit false

namespace Sre.Durability

open Foundation.Replace Sanitizer Remediation Scanner

section Samples

@[reducible] private def redactor : Redactor := ⟨fun t => t, fun t => t, fun t => t⟩

@[reducible] private def encoding : Remediation.Encoding := ⟨fun _ => some 0⟩

private def digests : List (Text × Text) :=
  [("deployment-web\x00DeploymentUnavailable\x00u1",
    "a05be99a65e5501a432c52005c100873aa296a735049e7cdb67ec67700af61b4")]

@[reducible] private def platform : Platform := .ofTables digests [] [] (by decide)

private def creation (failing : FileStep) : Attempt :=
  (.create (Proposal.sample "prop-1" "deployment-web"), fun step => step = failing, ⟨5, "event-1"⟩)

end Samples

end Sre.Durability
