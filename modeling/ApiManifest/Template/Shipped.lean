import ApiManifest.Files.Tree
import ApiManifest.Template.Printer

/-!
The templates that come with the library: for tables, for functions, and the source of a relational
database.
-/

namespace ApiManifest.ShippedTemplates

open Template (Node)

def wrapper : List Node := [
  .text "# ",
  .value "identifier",
  .text ": ",
  .value "signature",
  .text ("\n" ++
    "resource \"aws_appsync_resolver\" \""),
  .value "identifier",
  .text ("\" \x7b\n" ++
    "  api_id      = aws_appsync_graphql_api.appsync.id\n" ++
    "  type        = \""),
  .value "parentType",
  .text ("\"\n" ++
    "  field       = \""),
  .value "fieldName",
  .text ("\"\n" ++
    "  data_source = aws_appsync_datasource."),
  .value "dataSource.identifier",
  .text (".name\n" ++
    "\n" ++
    "  request_template = <<EOF\n"),
  .include "request",
  .text ("\n" ++
    "EOF\n" ++
    "\n" ++
    "  response_template = <<EOF\n"),
  .include "response",
  .text ("\n" ++
    "EOF\n" ++
    "\x7d\n")]

/-- A role policy, a table and the source that it makes. -/
def dynamoSource : List Node := [
  .text "resource \"aws_iam_role_policy\" \"dynamo_",
  .value "dataSource.identifier",
  .text ("\" \x7b\n" ++
    "  name   = \"$\x7bterraform.workspace\x7d-"),
  .value "apiName",
  .text "-dynamo-",
  .value "dataSource.name",
  .text ("\"\n" ++
    "  role   = aws_iam_role.appsync.id\n" ++
    "  policy = \"\x7b\\\"Version\\\":\\\"2012-10-17\\\"," ++
    "\\\"Statement\\\":[\x7b\\\"Action\\\":[\\\"dynamodb:*\\\"],\\\"Effect\\\":\\\"Allow\\\"," ++
    "\\\"Resource\\\":[\\\"$\x7baws_dynamodb_table."),
  .value "dataSource.identifier",
  .text ".arn\x7d\\\",\\\"$\x7baws_dynamodb_table.",
  .value "dataSource.identifier",
  .text (".arn\x7d/*\\\"]\x7d]\x7d\"\n" ++
    "\x7d\n" ++
    "\n" ++
    "resource \"aws_dynamodb_table\" \""),
  .value "dataSource.identifier",
  .text ("\" \x7b\n" ++
    "  name         = \"$\x7bterraform.workspace\x7d-"),
  .value "apiName",
  .text "-",
  .value "dataSource.name",
  .text ("\"\n" ++
    "  billing_mode = \"PAY_PER_REQUEST\"\n" ++
    "  hash_key     = \""),
  .value "dataSource.hashKey.field",
  .text "\"\n",
  .cond "dataSource.sortKey" [
      .text "  range_key    = \"",
      .value "dataSource.sortKey.field",
      .text ("\"\n" ++
        "\n" ++
        "  attribute \x7b\n" ++
        "    name = \""),
      .value "dataSource.sortKey.field",
      .text ("\"\n" ++
        "    type = \""),
      .value "dataSource.sortKey.type",
      .text ("\"\n" ++
        "  \x7d\n")] [],
  .text ("\n" ++
    "  attribute \x7b\n" ++
    "    name = \""),
  .value "dataSource.hashKey.field",
  .text ("\"\n" ++
    "    type = \""),
  .value "dataSource.hashKey.type",
  .text ("\"\n" ++
    "  \x7d\n" ++
    "\n" ++
    "  point_in_time_recovery \x7b\n" ++
    "    enabled = "),
  .cond "dataSource.disableBackup" [
      .text "false"] [
      .text "true"],
  .text ("\n" ++
    "  \x7d\n" ++
    "\n" ++
    "  tags = \x7b\n" ++
    "    Environment = terraform.workspace\n" ++
    "  \x7d\n" ++
    "\x7d\n" ++
    "\n" ++
    "resource \"aws_appsync_datasource\" \""),
  .value "dataSource.identifier",
  .text ("\" \x7b\n" ++
    "  api_id           = aws_appsync_graphql_api.appsync.id\n" ++
    "  name             = \"$\x7bterraform.workspace\x7d_"),
  .value "dataSource.identifier",
  .text ("\"\n" ++
    "  service_role_arn = aws_iam_role.appsync.arn\n" ++
    "  type             = \"AMAZON_DYNAMODB\"\n" ++
    "\n" ++
    "  dynamodb_config \x7b\n" ++
    "    table_name = aws_dynamodb_table."),
  .value "dataSource.identifier",
  .text (".name\n" ++
    "  \x7d\n" ++
    "\x7d\n")]

def dynamoGet : List Node := [
  .text ("\x7b\n" ++
    "    \"version\": \"2017-02-28\",\n" ++
    "    \"operation\": \"GetItem\",\n" ++
    "    \"key\": \x7b\n" ++
    "        \""),
  .value "hashKey",
  .text "\": $util.dynamodb.toDynamoDBJson($ctx.",
  .value "argsSource",
  .text ".",
  .value "hashKey",
  .text ")",
  .cond "sortKey" [
      .text (",\n" ++
        "        \""),
      .value "sortKey",
      .text "\": $util.dynamodb.toDynamoDBJson($ctx.",
      .value "argsSource",
      .text ".",
      .value "sortKey",
      .text ")"] [],
  .text ("\n" ++
    "    \x7d\n" ++
    "\x7d\n")]

def dynamoGetNested : List Node := [
  .text ("\x7b\n" ++
    "    \"version\": \"2017-02-28\",\n" ++
    "    \"operation\": \"GetItem\",\n" ++
    "    \"key\": \x7b\n" ++
    "        \""),
  .value "hashKey",
  .text "\": $util.dynamodb.toDynamoDBJson($ctx.source.",
  .value "parentKey",
  .text (")\n" ++
    "    \x7d\n" ++
    "\x7d\n")]

def dynamoList : List Node := [
  .text ("\x7b\n" ++
    "    \"version\": \"2017-02-28\",\n" ++
    "    \"operation\": \"Scan\",\n" ++
    "    \"limit\": $util.defaultIfNull($ctx.args.limit, 20),\n" ++
    "    \"nextToken\": $util.toJson($util.defaultIfNullOrEmpty($ctx.args.nextToken, null))\n" ++
    "#if( $ctx.args.filter )\n" ++
    "    ,\"filter\": $util.transform.toDynamoDBFilterExpression($ctx.args.filter)\n" ++
    "#end\n" ++
    "\x7d\n")]

def dynamoListNested : List Node := [
  .text ("\x7b\n" ++
    "    \"version\": \"2017-02-28\",\n" ++
    "    \"operation\": \"Query\",\n" ++
    "    \"index\": \""),
  .value "parentKey",
  .text ("-index\",\n" ++
    "    \"query\": \x7b\n" ++
    "        \"expression\": \"#parent = :parent\",\n" ++
    "        \"expressionNames\": \x7b \"#parent\": \""),
  .value "parentKey",
  .text ("\" \x7d,\n" ++
    "        \"expressionValues\": \x7b \":parent\": $util.dynamodb.toDynamoDBJson($ctx.source."),
  .value "hashKey",
  .text (") \x7d\n" ++
    "    \x7d,\n" ++
    "    \"scanIndexForward\": "),
  .value "scanIndexForward",
  .text ("\n" ++
    "\x7d\n")]

def dynamoInsert : List Node := [
  .text ("\x7b\n" ++
    "    \"version\": \"2017-02-28\",\n" ++
    "    \"operation\": \"PutItem\",\n" ++
    "    \"key\": \x7b\n" ++
    "        \""),
  .value "hashKey",
  .text ("\": $util.dynamodb.toDynamoDBJson($util.autoId())\n" ++
    "    \x7d,\n" ++
    "    \"attributeValues\": $util.dynamodb.toMapValuesJson($ctx.args.input)\n" ++
    "\x7d\n")]

def dynamoUpdate : List Node := [
  .text ("\x7b\n" ++
    "    \"version\": \"2017-02-28\",\n" ++
    "    \"operation\": \"PutItem\",\n" ++
    "    \"key\": \x7b\n" ++
    "        \""),
  .value "hashKey",
  .text "\": $util.dynamodb.toDynamoDBJson($ctx.args.input.",
  .value "hashKey",
  .text (")\n" ++
    "    \x7d,\n" ++
    "    \"attributeValues\": $util.dynamodb.toMapValuesJson($ctx.args.input),\n" ++
    "    \"condition\": \x7b\n" ++
    "        \"expression\": \"attribute_exists(#key)\",\n" ++
    "        \"expressionNames\": \x7b \"#key\": \""),
  .value "hashKey",
  .text ("\" \x7d\n" ++
    "    \x7d\n" ++
    "\x7d\n")]

def dynamoDelete : List Node := [
  .text ("\x7b\n" ++
    "    \"version\": \"2017-02-28\",\n" ++
    "    \"operation\": \"DeleteItem\",\n" ++
    "    \"key\": \x7b\n" ++
    "        \""),
  .value "hashKey",
  .text "\": $util.dynamodb.toDynamoDBJson($ctx.",
  .value "argsSource",
  .text ".",
  .value "hashKey",
  .text ")",
  .cond "sortKey" [
      .text (",\n" ++
        "        \""),
      .value "sortKey",
      .text "\": $util.dynamodb.toDynamoDBJson($ctx.",
      .value "argsSource",
      .text ".",
      .value "sortKey",
      .text ")"] [],
  .text ("\n" ++
    "    \x7d\n" ++
    "\x7d\n")]

def result : List Node := [
  .text "$util.toJson($ctx.result)\n"]

def page : List Node := [
  .text ("\x7b\n" ++
    "    \"items\": $util.toJson($ctx.result.items),\n" ++
    "    \"nextToken\": $util.toJson($util.defaultIfNullOrBlank($ctx.result.nextToken, null))\n" ++
    "\x7d\n")]

def items : List Node := [
  .text "$util.toJson($ctx.result.items)\n"]

/-- A source that calls a function, which is named or given by its address. -/
def lambdaSource : List Node := [
  .text "resource \"aws_appsync_datasource\" \"",
  .value "dataSource.identifier",
  .text ("\" \x7b\n" ++
    "  api_id           = aws_appsync_graphql_api.appsync.id\n" ++
    "  name             = \"$\x7bterraform.workspace\x7d_"),
  .value "dataSource.identifier",
  .text ("\"\n" ++
    "  service_role_arn = aws_iam_role.appsync.arn\n" ++
    "  type             = \"AWS_LAMBDA\"\n" ++
    "\n" ++
    "  lambda_config \x7b\n"),
  .cond "dataSource.functionArn" [
      .text "    function_arn = \"",
      .value "dataSource.functionArn",
      .text "\"\n"] [
      .text "    function_arn = aws_lambda_function.",
      .value "dataSource.functionName",
      .text ".arn\n"],
  .text ("  \x7d\n" ++
    "\x7d\n")]

def lambdaCall : List Node := [
  .text ("\x7b\n" ++
    "    \"version\": \"2017-02-28\",\n" ++
    "    \"operation\": \"Invoke\",\n" ++
    "    \"payload\": \x7b\n" ++
    "        \"action\": \""),
  .value "action",
  .text ("\",\n" ++
    "        \"parentType\": \""),
  .value "parentType",
  .text ("\",\n" ++
    "        \"field\": \""),
  .value "fieldName",
  .text ("\",\n" ++
    "        \"keyFields\": "),
  .value "keyFieldsList",
  .text (",\n" ++
    "        \"arguments\": $util.toJson($ctx.args),\n" ++
    "        \"source\": $util.toJson($ctx.source)\n" ++
    "    \x7d\n" ++
    "\x7d\n")]

def lambdaCallNested : List Node := [
  .text ("\x7b\n" ++
    "    \"version\": \"2017-02-28\",\n" ++
    "    \"operation\": \"Invoke\",\n" ++
    "    \"payload\": \x7b\n" ++
    "        \"action\": \""),
  .value "action",
  .text ("\",\n" ++
    "        \"parentType\": \""),
  .value "parentType",
  .text ("\",\n" ++
    "        \"field\": \""),
  .value "fieldName",
  .text ("\",\n" ++
    "        \"parentKey\": \""),
  .value "parentKey",
  .text ("\",\n" ++
    "        \"keyFields\": "),
  .value "keyFieldsList",
  .text (",\n" ++
    "        \"arguments\": $util.toJson($ctx.args),\n" ++
    "        \"source\": $util.toJson($ctx.source)\n" ++
    "    \x7d\n" ++
    "\x7d\n")]

def sqlSource : List Node := [
  .text "resource \"aws_appsync_datasource\" \"",
  .value "dataSource.identifier",
  .text ("\" \x7b\n" ++
    "  api_id           = aws_appsync_graphql_api.appsync.id\n" ++
    "  name             = \"$\x7bterraform.workspace\x7d_"),
  .value "dataSource.identifier",
  .text ("\"\n" ++
    "  service_role_arn = aws_iam_role.appsync.arn\n" ++
    "  type             = \"RELATIONAL_DATABASE\"\n" ++
    "\n" ++
    "  relational_database_config \x7b\n" ++
    "    http_endpoint_config \x7b\n" ++
    "      db_cluster_identifier = var."),
  .value "dataSource.identifier",
  .text ("_cluster_arn\n" ++
    "      aws_secret_store_arn  = var."),
  .value "dataSource.identifier",
  .text "_secret_arn\n",
  .cond "dataSource.database" [
      .text "      database_name         = \"",
      .value "dataSource.database",
      .text "\"\n"] [],
  .text ("    \x7d\n" ++
    "  \x7d\n" ++
    "\x7d\n")]

def files : List (Path × List Node) := [
  ("dynamo/datasource.tmpl", dynamoSource),
  ("dynamo/request/delete.tmpl", dynamoDelete),
  ("dynamo/request/get-nested.tmpl", dynamoGetNested),
  ("dynamo/request/get.tmpl", dynamoGet),
  ("dynamo/request/insert.tmpl", dynamoInsert),
  ("dynamo/request/list-nested.tmpl", dynamoListNested),
  ("dynamo/request/list.tmpl", dynamoList),
  ("dynamo/request/update.tmpl", dynamoUpdate),
  ("dynamo/response/delete.tmpl", result),
  ("dynamo/response/get-nested.tmpl", result),
  ("dynamo/response/get.tmpl", result),
  ("dynamo/response/insert.tmpl", result),
  ("dynamo/response/list-nested.tmpl", items),
  ("dynamo/response/list.tmpl", page),
  ("dynamo/response/update.tmpl", result),
  ("lambda/datasource.tmpl", lambdaSource),
  ("lambda/request/delete.tmpl", lambdaCall),
  ("lambda/request/get-nested.tmpl", lambdaCallNested),
  ("lambda/request/get.tmpl", lambdaCall),
  ("lambda/request/insert.tmpl", lambdaCall),
  ("lambda/request/list-nested.tmpl", lambdaCallNested),
  ("lambda/request/list.tmpl", lambdaCall),
  ("lambda/request/update.tmpl", lambdaCall),
  ("lambda/response/delete.tmpl", result),
  ("lambda/response/get-nested.tmpl", result),
  ("lambda/response/get.tmpl", result),
  ("lambda/response/insert.tmpl", result),
  ("lambda/response/list-nested.tmpl", result),
  ("lambda/response/list.tmpl", result),
  ("lambda/response/update.tmpl", result),
  ("resolver.tmpl", wrapper),
  ("sql/datasource.tmpl", sqlSource)]

def install (root : Path) (tree : FileTree) : FileTree :=
  files.foldl
    (fun tree (path, nodes) => tree.install (Path.join root path) (Text.Utf8.encode (Template.printNodes nodes))) tree

end ApiManifest.ShippedTemplates
