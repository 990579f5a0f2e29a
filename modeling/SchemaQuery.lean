import SchemaQuery.Catalog
import SchemaQuery.Column
import SchemaQuery.Column.Definition.Parser
import SchemaQuery.Column.Definition.Printer
import SchemaQuery.Column.Definition.Token
import SchemaQuery.Column.Key
import SchemaQuery.Column.Reference
import SchemaQuery.CommandLine.Arguments
import SchemaQuery.CommandLine.Command
import SchemaQuery.CommandLine.Report
import SchemaQuery.Connection.Document
import SchemaQuery.Connection.Redaction
import SchemaQuery.Connection.Settings
import SchemaQuery.Connection.Url
import SchemaQuery.Constraint
import SchemaQuery.Constraint.Check
import SchemaQuery.Constraint.Memory
import SchemaQuery.Constraint.Source
import SchemaQuery.Database
import SchemaQuery.Database.Operations
import SchemaQuery.Database.SchemaChange
import SchemaQuery.Engine
import SchemaQuery.Engine.Scripted
import SchemaQuery.Error
import SchemaQuery.Expr
import SchemaQuery.Join
import SchemaQuery.Json
import SchemaQuery.Main
import SchemaQuery.Method
import SchemaQuery.MySql.Cell
import SchemaQuery.MySql.Charset
import SchemaQuery.MySql.Clause
import SchemaQuery.MySql.Client
import SchemaQuery.MySql.DataType
import SchemaQuery.MySql.Description
import SchemaQuery.MySql.Identifier
import SchemaQuery.MySql.Literal
import SchemaQuery.MySql.Server
import SchemaQuery.Number.Binary64
import SchemaQuery.Number.Layout
import SchemaQuery.Number.Reader
import SchemaQuery.Number.Shortest
import SchemaQuery.Output
import SchemaQuery.Proofs.Action
import SchemaQuery.Proofs.Catalog
import SchemaQuery.Proofs.Column.Attachment
import SchemaQuery.Proofs.Column.Definition.Arrangement
import SchemaQuery.Proofs.Column.Definition.Balance
import SchemaQuery.Proofs.Column.Definition.Clause
import SchemaQuery.Proofs.Column.Definition.List
import SchemaQuery.Proofs.Column.Definition.RoundTrip
import SchemaQuery.Proofs.Column.Definition.Token
import SchemaQuery.Proofs.Column.Lookup
import SchemaQuery.Proofs.Column.Name
import SchemaQuery.Proofs.Column.Owner
import SchemaQuery.Proofs.Connection.Redaction
import SchemaQuery.Proofs.Connection.Url
import SchemaQuery.Proofs.Constraint.StoredRow
import SchemaQuery.Proofs.Database.AddedKey
import SchemaQuery.Proofs.Database.Check
import SchemaQuery.Proofs.Database.CheckedInsert
import SchemaQuery.Proofs.Database.DroppedKey
import SchemaQuery.Proofs.Database.Ending
import SchemaQuery.Proofs.Database.Failure
import SchemaQuery.Proofs.Database.ForeignKeys
import SchemaQuery.Proofs.Database.Learning
import SchemaQuery.Proofs.Database.Lifecycle
import SchemaQuery.Proofs.Database.Limit
import SchemaQuery.Proofs.Database.LinkedKey
import SchemaQuery.Proofs.Database.NewForeignKey
import SchemaQuery.Proofs.Database.Registry
import SchemaQuery.Proofs.Database.SchemaChange
import SchemaQuery.Proofs.Database.Session
import SchemaQuery.Proofs.Database.Submit
import SchemaQuery.Proofs.Database.Temporary
import SchemaQuery.Proofs.Database.ValidColumn
import SchemaQuery.Proofs.Except
import SchemaQuery.Proofs.Expr
import SchemaQuery.Proofs.Join
import SchemaQuery.Proofs.Method
import SchemaQuery.Proofs.MySql.Cell
import SchemaQuery.Proofs.MySql.Description
import SchemaQuery.Proofs.MySql.Scan
import SchemaQuery.Proofs.MySql.TextLiteral
import SchemaQuery.Proofs.MySql.Token
import SchemaQuery.Proofs.Number.Numeral
import SchemaQuery.Proofs.Number.Reader
import SchemaQuery.Proofs.Request.Agreement
import SchemaQuery.Proofs.Request.Creation
import SchemaQuery.Proofs.Request.Fault
import SchemaQuery.Proofs.Request.Insertion
import SchemaQuery.Proofs.Request.ItemList
import SchemaQuery.Proofs.Request.Modifiers
import SchemaQuery.Proofs.Request.NewColumn
import SchemaQuery.Proofs.Request.Safety
import SchemaQuery.Proofs.Request.Spelling
import SchemaQuery.Proofs.Request.Statement
import SchemaQuery.Proofs.Request.Unquoted
import SchemaQuery.Proofs.Request.Validation
import SchemaQuery.Proofs.Table
import SchemaQuery.Proofs.Text.Cut
import SchemaQuery.Proofs.Text.Words
import SchemaQuery.Proofs.Value
import SchemaQuery.Proofs.Value.HashKey
import SchemaQuery.Request
import SchemaQuery.Request.Definitions
import SchemaQuery.Request.Resolution
import SchemaQuery.Request.Schema
import SchemaQuery.Request.Shape
import SchemaQuery.Request.Statement
import SchemaQuery.Request.Validation
import SchemaQuery.Row
import SchemaQuery.Statement
import SchemaQuery.Table
import SchemaQuery.Text.Blank
import SchemaQuery.Text.Case
import SchemaQuery.Text.Cut
import SchemaQuery.Text.Hex
import SchemaQuery.Text.Quoted
import SchemaQuery.Text.Unprintable
import SchemaQuery.Text.Utf8
import SchemaQuery.Toml.Document
import SchemaQuery.Toml.Number
import SchemaQuery.Toml.Quoted
import SchemaQuery.Value
