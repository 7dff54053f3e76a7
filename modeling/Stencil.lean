import Stencil.Main
import Stencil.Numeral.Lemmas
import Stencil.Proofs.Coercion.Double
import Stencil.Proofs.Coercion.Integer
import Stencil.Proofs.Coercion.Refusal
import Stencil.Proofs.CommandLine.Library
import Stencil.Proofs.CommandLine.Plain
import Stencil.Proofs.CommandLine.Reading
import Stencil.Proofs.Format.Exponential
import Stencil.Proofs.Format.Integral
import Stencil.Proofs.Format.Limits
import Stencil.Proofs.Format.ReadBack
import Stencil.Proofs.Format.Stars
import Stencil.Proofs.Format.Width
import Stencil.Proofs.FormatMap.Agreement
import Stencil.Proofs.FormatMap.Escaped
import Stencil.Proofs.FormatMap.Lead
import Stencil.Proofs.FormatMap.Replacement
import Stencil.Proofs.Json.RoundTrip
import Stencil.Proofs.Json.Sets
import Stencil.Proofs.Numeral.Long
import Stencil.Proofs.Session.Accounts
import Stencil.Proofs.Session.Failure
import Stencil.Proofs.Session.History
import Stencil.Proofs.Session.Isolation
import Stencil.Proofs.Template.Concatenation
import Stencil.Proofs.Template.Numbering
import Stencil.Proofs.Template.Printed
import Stencil.Proofs.Template.Tokens
import Stencil.Session
