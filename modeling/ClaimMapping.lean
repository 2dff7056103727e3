import ClaimMapping.KeyMap
import ClaimMapping.Text.Blank
import ClaimMapping.Text.Separated
import ClaimMapping.Decimal.Layout
import ClaimMapping.Decimal.Numeral
import ClaimMapping.Unicode.Word
import ClaimMapping.Unicode.Hidden
import ClaimMapping.Unicode.Folding
import ClaimMapping.Text.Utf8
import ClaimMapping.Base64Url
import ClaimMapping.Json.Reader
import ClaimMapping.Json.Printer
import ClaimMapping.Regex.Reader
import ClaimMapping.Regex.Match
import ClaimMapping.Xml.Event
import ClaimMapping.Attribute.Family
import ClaimMapping.Template
import ClaimMapping.Time.Timestamp
import ClaimMapping.Time.Duration
import ClaimMapping.Expression.Operator
import ClaimMapping.Expression.Reader
import ClaimMapping.Expression.Builtin
import ClaimMapping.Expression.Environment
import ClaimMapping.Provider.Registry
import ClaimMapping.Mapping.Run
import ClaimMapping.CommandLine.Run
import ClaimMapping.Main
import ClaimMapping.Proofs.Mapping.Acceptance
import ClaimMapping.Proofs.Mapping.FirstFailure
import ClaimMapping.Proofs.Saml.Refinement
import ClaimMapping.Proofs.Provider.Assertion
import ClaimMapping.Proofs.Mapping.ConditionVariables
import ClaimMapping.Proofs.Mapping.Resolution
import ClaimMapping.Proofs.Base64Url
import ClaimMapping.Proofs.Provider.Token
import ClaimMapping.Proofs.Mapping.ClaimEncoding
import ClaimMapping.Proofs.Xml.Markup
import ClaimMapping.Proofs.Xml.Event
import ClaimMapping.Proofs.Xml.Scope
import ClaimMapping.Proofs.Provider.Format
import ClaimMapping.Proofs.Mapping.Detection
import ClaimMapping.Proofs.Xml.Reference
import ClaimMapping.Proofs.Saml.Comment
import ClaimMapping.Proofs.Mapping.Independence
import ClaimMapping.Proofs.Mapping.Gate
import ClaimMapping.Proofs.Mapping.Neutrality
import ClaimMapping.Proofs.Template
import ClaimMapping.Proofs.Provider.Grammar
import ClaimMapping.Proofs.Text.Separated
import ClaimMapping.Proofs.Attribute.Nested
import ClaimMapping.Proofs.Mapping.Binding
import ClaimMapping.Proofs.Expression.Overload
import ClaimMapping.Proofs.Saml.Roots
import ClaimMapping.Proofs.Mapping.TimeLayout
import ClaimMapping.Proofs.Saml.Spacing
import ClaimMapping.Proofs.Mapping.Crash
import ClaimMapping.Proofs.Expression.Closure
import ClaimMapping.Proofs.Catalog
import ClaimMapping.Proofs.Template.Renaming
import ClaimMapping.Proofs.Mapping.Log
import ClaimMapping.Proofs.Json.Indented
import ClaimMapping.Proofs.CommandLine.RequestFile
import ClaimMapping.Proofs.Attribute.Written
import ClaimMapping.Proofs.CommandLine.Output
import ClaimMapping.Proofs.CommandLine.Spelling
import ClaimMapping.Proofs.CommandLine.Override
import ClaimMapping.Proofs.Saml.History
import ClaimMapping.Proofs.Mapping.TargetKey
