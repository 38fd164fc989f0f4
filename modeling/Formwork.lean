import Formwork.Action
import Formwork.Bean
import Formwork.Bean.Fields
import Formwork.Binding
import Formwork.Calendar.Date
import Formwork.Calendar.Format
import Formwork.Config.Environment
import Formwork.Config.Settings
import Formwork.Config.Value
import Formwork.Conversion.BuiltIn
import Formwork.Conversion.Registry
import Formwork.Declaration.Identifier
import Formwork.Declaration.Item
import Formwork.Declaration.Literal
import Formwork.Declaration.Options
import Formwork.Declaration.TypeName
import Formwork.Dispatch.Description
import Formwork.Dispatch.Dispatcher
import Formwork.Dispatch.Error
import Formwork.Dispatch.Exceptions
import Formwork.FieldError
import Formwork.FieldError.Json
import Formwork.FieldName
import Formwork.Http.Message
import Formwork.Http.Server
import Formwork.Json
import Formwork.Locale.Basic
import Formwork.Locale.Numeral
import Formwork.Logging.Config
import Formwork.Logging.Filter
import Formwork.Manifest
import Formwork.Message.Bundle
import Formwork.Message.Template
import Formwork.NameMap
import Formwork.Numeric.Binary
import Formwork.Numeric.Decimal
import Formwork.Numeric.Integer
import Formwork.Outcome
import Formwork.Proofs.Binding.Accounting
import Formwork.Proofs.Binding.Failures
import Formwork.Proofs.Binding.Independence
import Formwork.Proofs.Binding.Limits
import Formwork.Proofs.Binding.Report
import Formwork.Proofs.Binding.Required
import Formwork.Proofs.Dispatch.Constraints
import Formwork.Proofs.Dispatch.Exceptions
import Formwork.Proofs.Dispatch.Recovery
import Formwork.Proofs.Dispatch.Redirect
import Formwork.Proofs.Dispatch.Redisplay
import Formwork.Proofs.Dispatch.Stages
import Formwork.Proofs.Dispatch.Wizard
import Formwork.Proofs.Except
import Formwork.Proofs.FieldError
import Formwork.Proofs.Http.Address
import Formwork.Proofs.Locale.Numeral
import Formwork.Proofs.NameMap
import Formwork.Proofs.Path.FieldName
import Formwork.Proofs.Path.Grammar
import Formwork.Proofs.Path.Spelling
import Formwork.Proofs.Property.Binding
import Formwork.Proofs.Property.Creation
import Formwork.Proofs.Property.Divergence
import Formwork.Proofs.Property.Numbers
import Formwork.Proofs.Property.Ordered
import Formwork.Proofs.Property.ReadBack
import Formwork.Proofs.Property.Slot
import Formwork.Proofs.Property.Walk
import Formwork.Proofs.Routing.Building
import Formwork.Proofs.Routing.Matching
import Formwork.Proofs.Routing.Reverse
import Formwork.Proofs.Routing.Router
import Formwork.Proofs.Sample.Catalogue
import Formwork.Proofs.Text.Blank
import Formwork.Proofs.Text.Percent
import Formwork.Proofs.Validation.Errors
import Formwork.Proofs.Validation.Fields
import Formwork.Proofs.Validation.Rows
import Formwork.Property.Access
import Formwork.Property.Assign
import Formwork.Property.Binding
import Formwork.Property.Descriptor
import Formwork.Property.Path
import Formwork.Property.Schema
import Formwork.Property.Value
import Formwork.Request
import Formwork.Routing.Pattern
import Formwork.Routing.Router
import Formwork.Sample.Catalogue
import Formwork.Sample.Converters
import Formwork.Sample.Inventory
import Formwork.Sample.Script
import Formwork.Scalar
import Formwork.Starter.Application
import Formwork.Starter.Bugs
import Formwork.Starter.Calculator
import Formwork.Starter.Signup
import Formwork.Text.Blank
import Formwork.Text.Naming
import Formwork.Text.Pattern.Basic
import Formwork.Text.Pattern.CharSet
import Formwork.Text.Pattern.Class
import Formwork.Text.Pattern.Parser
import Formwork.Text.Percent
import Formwork.Text.Quoted
import Formwork.Text.Unicode.Case
import Formwork.Text.Unicode.Category
import Formwork.Text.Unicode.Property
import Formwork.Text.Unicode.Table
import Formwork.Toml.Basic
import Formwork.Toml.Document
import Formwork.Toml.Quotation
import Formwork.Toml.Scalar
import Formwork.Toml.Table
import Formwork.Validation.Check
import Formwork.Validation.Custom
import Formwork.Validation.Fields
import Formwork.Validation.Rule
import Formwork.Validation.Scope
import Formwork.Proofs.Locale.Grammar
import Formwork.Proofs.Conversion.Integer
import Formwork.Proofs.Property.Elements
import Formwork.Proofs.Validation.Ranges
import Formwork.Proofs.Binding.Ranges
import Formwork.Proofs.Conversion.BuiltIn
import Formwork.Proofs.Property.Typing
import Formwork.Proofs.Binding.Instantiation
import Formwork.Proofs.Property.Sequences
import Formwork.Proofs.Property.InPlace
import Formwork.Proofs.Property.Origin
import Formwork.Proofs.FirstUse
import Formwork.Proofs.Manifest
import Formwork.Proofs.Http.Parameters
import Formwork.Validation.RuleIndex
import Formwork.Proofs.Validation.Precedence
import Formwork.Proofs.Numeric.Binary64
import Formwork.Proofs.Numeric.Nearest
import Formwork.Proofs.Numeric.Rounding
import Formwork.Proofs.Numeric.Decimal
import Formwork.Proofs.Numeric.Neighbours
import Formwork.Proofs.Validation.Exactness
import Formwork.Proofs.Validation.Triggers
import Formwork.Proofs.Property.Sparse
import Formwork.Proofs.Property.Idempotence
import Formwork.Proofs.Conversion.Exclusive
import Formwork.Proofs.Config.Environment
import Formwork.Proofs.Validation.History
import Formwork.Proofs.Message.Template
import Formwork.Proofs.Text.Pattern.Enclosed
import Formwork.Proofs.Text.Pattern.Grammar
import Formwork.Proofs.Validation.Mask
import Formwork.Proofs.Path.Errors
import Formwork.Proofs.Toml.Table
import Formwork.Proofs.Config.Document
import Formwork.Proofs.Dispatch.Contributions
import Formwork.Proofs.Text.Case
import Formwork.Proofs.Locale.Tag
import Formwork.Proofs.Property.Descriptor
