import Sre.Orchestrator.Ledger
import Sre.Server.Announcements
import Sre.Server.Corroboration
import Sre.Server.Delivery
import Sre.Server.Knowledge
import Sre.Server.Runs
import Sre.Remediation.Approval
import Sre.Durability
import Sre.Scanner.Confluence
import Sre.Scheduler.Trigger
import Sre.Plugin.Children
import Sre.Plugin.Registry
import Sre.Integration.Ownership
import Sre.Recovery.Sustained
import Sre.Investigation.Agreement
import Sre.Investigation.Hypothesis
import Sre.Sanitizer.Shape
import Sre.Sanitizer.Embedded
import Sre.Scanner.Query
import Sre.Triage.Session
import Sre.Remediation.Truthful
import Sre.Storage.Migration
