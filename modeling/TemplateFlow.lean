import TemplateFlow.Main
import TemplateFlow.Proofs.Expr.Gate
import TemplateFlow.Proofs.Expr.LiteralCall
import TemplateFlow.Proofs.Expr.OptionalLink
import TemplateFlow.Proofs.Expr.RoundTrip
import TemplateFlow.Proofs.Flow.Acknowledgement
import TemplateFlow.Proofs.Flow.Failure
import TemplateFlow.Proofs.Flow.History
import TemplateFlow.Proofs.Flow.Isolation
import TemplateFlow.Proofs.Flow.RoundTrip
import TemplateFlow.Proofs.Flow.Stored
import TemplateFlow.Proofs.Flow.Turns
import TemplateFlow.Proofs.Number.Equality
import TemplateFlow.Proofs.Number.Nearest
import TemplateFlow.Proofs.Syntax.Malformed
import TemplateFlow.Proofs.Syntax.Reach
import TemplateFlow.Proofs.Syntax.Span
import TemplateFlow.Proofs.Syntax.Spelling
import TemplateFlow.Proofs.Syntax.Viable
import TemplateFlow.Proofs.Template.Addressing
import TemplateFlow.Proofs.Template.Boundary
import TemplateFlow.Proofs.Template.Reference
import TemplateFlow.Proofs.Template.Scope
import TemplateFlow.Proofs.Template.Verdict
import TemplateFlow.Proofs.Value.Data
import TemplateFlow.Proofs.Value.DataForm
import TemplateFlow.Proofs.Value.Equality
import TemplateFlow.Proofs.Value.Places
import TemplateFlow.Scripted.Handler
