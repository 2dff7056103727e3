namespace ClaimMapping.Xml

/-- What can be wrong with an XML document. -/
inductive Defect where
  | unclosedTag
  | unclosedComment
  | unclosedCharacterData
  | unclosedDocumentType
  | unclosedInstruction
  | unknownMarkup
  | missingDocumentType
  | unterminatedReference
  | unknownReference (name : String)
  | badCharacterReference (number : String)
  | mismatchedEnd (expected found : String)
  | unmatchedEnd (name : String)
  | attributeWithoutEquals
  | attributeWithoutValue
  | unquotedValue
  | unclosedValue
  | repeatedAttribute (name : String)
  | reservedQualifier (name : String)
  | reservedNamespace (namespaceName : String)
  | unexpectedEnd
  deriving DecidableEq, Repr

def Defect.message : Defect → String
  | .unclosedTag => "a tag is not closed"
  | .unclosedComment => "a comment is not closed"
  | .unclosedCharacterData => "a character data section is not closed"
  | .unclosedDocumentType => "a document type declaration is not closed"
  | .unclosedInstruction => "a processing instruction is not closed"
  | .unknownMarkup => "unknown markup"
  | .missingDocumentType => "a document type declaration without a name"
  | .unterminatedReference => "a reference is not terminated"
  | .unknownReference name => "unknown entity " ++ name
  | .badCharacterReference number => "no character has the number " ++ number
  | .mismatchedEnd expected found => "expected the end of " ++ expected ++ ", got " ++ found
  | .unmatchedEnd name => "the end of " ++ name ++ " has no start"
  | .attributeWithoutEquals => "an attribute without an equals sign"
  | .attributeWithoutValue => "an attribute without a value"
  | .unquotedValue => "an attribute value without quotes"
  | .unclosedValue => "an attribute value is not closed"
  | .repeatedAttribute name => "the attribute " ++ name ++ " is given twice"
  | .reservedQualifier name => "the prefix " ++ name ++ " cannot be bound"
  | .reservedNamespace name => "no other prefix can be bound to " ++ name
  | .unexpectedEnd => "unexpected end of document"

end ClaimMapping.Xml
